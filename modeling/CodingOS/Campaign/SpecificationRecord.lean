import CodingOS.Campaign.Specification
import CodingOS.Python.JsonRead

/-!
# Reading a specification back

`from_dict` of `ValidationCommand`, `AttemptBudget`, `NodeSpec` and `CampaignSpec`, applied to a decoded
document.  What `to_dict` writes is read back as it was, whatever order the keys are in and although empty
scenarios, tools and policies are left out; so the digest of a specification tells it apart from every
other one.

An argument that the class refuses by its type alone (a scenario or a policy that is no object, a negative
epoch or limit) is refused here while the arguments are read, and so before the other checks.
-/

namespace CodingOS.Campaign

open CodingOS.Python

/-! ### Arguments -/

section Arguments

variable [Runtime]

/-- `value[key]`. -/
def fieldValue (entries : Mapping) (key : String) : Result Value :=
  orRaise (entries.get? key) .python ("'" ++ key ++ "'")

/-- `str(value[key])`. -/
def fieldText (entries : Mapping) (key : String) : Result String := do
  let v ← fieldValue entries key
  return decodedText v

/-- `tuple(value.get(key, ()))`. -/
def fieldItems (entries : Mapping) (key : String) : Result (List Value) :=
  orRaise (entries.getD key (.tuple [])).items? .python "object is not iterable"

/-- `tuple(str(item) for item in value.get(key, ()))`. -/
def fieldTexts (entries : Mapping) (key : String) : Result (List String) := do
  let items ← fieldItems entries key
  return items.map decodedText

/-- `int(value)`. -/
def intOf (v : Value) : Result ℤ := orRaise v.toInt .python "invalid literal for int() with base 10"

/-- `int(value[key])`. -/
def fieldInt (entries : Mapping) (key : String) : Result ℤ := do
  let v ← fieldValue entries key
  intOf v

/-- `int(value)`, of a number that the class refuses when it is negative. -/
def natOf (v : Value) (message : String) : Result ℕ := do
  let n ← intOf v
  check .modelValidation (0 ≤ n) message
  return n.toNat

/-- `str(value[key]) if value.get(key) else None`. -/
def fieldOptional (entries : Mapping) (key : String) : Option String :=
  if (entries.read key).truthy then some (decodedText (entries.read key)) else none

/-- `_enum(enum_type, value[key])`. -/
def fieldEnum {α : Type} (entries : Mapping) (key : String) (ofValue? : String → Option α)
    (name : String) : Result α := do
  let v ← fieldValue entries key
  orRaise (ofValue? (decodedText v)) .modelValidation ("invalid " ++ name ++ ": " ++ decodedRepr v)

/-- `str(value.get(key, default))`. -/
def fieldTextD (entries : Mapping) (key default : String) : String :=
  decodedText (entries.getD key (.str default))

/-- The entries of a document that is read with `value[key]` and `value.get(key)`. -/
def document (value : Value) : Result Mapping :=
  orRaise value.asMapping? .python "object has no attribute 'get'"

end Arguments

/-! ### `from_dict` -/

section FromDict

variable [Runtime]

/-- `_freeze(policy)` of a correction policy that is declared. -/
def frozenPolicy (policy : Value) : Result (Option Mapping) :=
  match freeze policy with
  | .null => pure none
  | .mapping entries => pure (some entries)
  | _ =>
      fail .modelValidation
        "correction policy requires an exact unittest expectation and clean passing command"

/-- The arguments `ValidationCommand.from_dict` passes on, as `__post_init__` stores them. -/
def ValidationCommandFields.fromDict (value : Value) : Result ValidationCommandFields := do
  let entries ← document value
  let commandId ← fieldText entries "command_id"
  let executable ← fieldText entries "executable"
  let arguments ← fieldTexts entries "arguments"
  let workingDirectory ← fieldText entries "working_directory"
  let environmentAllowlist ← fieldTexts entries "environment_allowlist"
  let timeoutSeconds ← fieldInt entries "timeout_seconds"
  let outputLimitBytes ← fieldInt entries "output_limit_bytes"
  let expectedWorktreeCondition ← fieldText entries "expected_worktree_condition"
  let expectedStatus := match entries.read "expected_status_sha256" with
    | .null => none
    | v => some (decodedText v)
  let requiredExitCode ← intOf (entries.getD "required_exit_code" (.int 0))
  let correctionPolicy ← frozenPolicy (entries.read "correction_policy")
  return {
    commandId, executable, arguments, workingDirectory, environmentAllowlist
    timeoutSeconds := timeoutSeconds.toNat
    outputLimitBytes := outputLimitBytes.toNat
    expectedWorktreeCondition
    expectedStatusSha256 :=
      if expectedWorktreeCondition = "EXACT_STATUS" then expectedStatus.map casefold else expectedStatus
    requiredExitCode, correctionPolicy }

def ValidationCommandFields.build (c : ValidationCommandFields) : Result ValidationCommand :=
  match h : c.postInit with
  | .ok () => .ok ⟨c, h⟩
  | .error e => .error e

/-- `ValidationCommand.from_dict`. -/
def ValidationCommand.fromDict (value : Value) : Result ValidationCommand := do
  let fields ← ValidationCommandFields.fromDict value
  fields.build

/-- `AttemptBudget.from_dict`. -/
def AttemptBudget.fromDict (value : Value) : Result AttemptBudget := do
  let entries ← document value
  let token ← fieldEnum entries "token" BudgetToken.ofValue? "BudgetToken"
  let limitValue ← fieldValue entries "limit"
  let limit ← natOf limitValue "attempt budget limit must not be negative"
  return { token, limit }

/-- The arguments `NodeSpec.from_dict` passes on, as `__post_init__` stores them. -/
def NodeSpecFields.fromDict (value : Value) : Result NodeSpecFields := do
  let entries ← document value
  check .modelValidation (entries.getD "requires_review" (.bool true) == .bool true)
    "every campaign node requires the frozen review cohort"
  let nodeId ← fieldText entries "node_id"
  let objective ← fieldText entries "objective"
  let dependencies ← fieldTexts entries "dependencies"
  let allowedPaths ← fieldTexts entries "allowed_paths"
  let validationCommandIds ← fieldTexts entries "validation_command_ids"
  let scenarios ← fieldItems entries "acceptance_scenarios"
  let requiredTools ← fieldItems entries "required_tools"
  let acceptanceScenarios ← scenarios.mapM fun item =>
    orRaise (freeze item).asMapping? .modelValidation "acceptance scenario must be an object"
  return {
    nodeId, objective, dependencies, allowedPaths, validationCommandIds
    deadlineUtc := fieldOptional entries "deadline_utc"
    acceptanceScenarios, requiredTools }

/-- No text of a true value is empty, so the last case is never met. -/
def NodeSpecFields.build (n : NodeSpecFields) : Result NodeSpec :=
  match h : n.postInit with
  | .ok () =>
      if hdeadline : n.deadlineUtc ≠ some "" then .ok ⟨n, h, hdeadline⟩
      else fail .python "a deadline without text"
  | .error e => .error e

/-- `NodeSpec.from_dict`. -/
def NodeSpec.fromDict (value : Value) : Result NodeSpec := do
  let fields ← NodeSpecFields.fromDict value
  fields.build

/-- `_freeze(value["publication_authority"])`, which must be a mapping for the first `get` on it. -/
def frozenAuthority (value : Value) : Result Mapping :=
  match freeze value with
  | .mapping authority => pure authority
  | v => do
      check .modelValidation v.truthy "publication authority must not be empty"
      fail .python "object has no attribute 'get'"

/-- The arguments `CampaignSpec.from_dict` passes on, as `__post_init__` stores them. -/
def CampaignSpecFields.ofEntries (entries : Mapping) : Result CampaignSpecFields := do
  let campaignId ← fieldText entries "campaign_id"
  let specificationRevision ← fieldInt entries "specification_revision"
  let authorityValue ← fieldValue entries "authority_epoch"
  let authorityEpoch ← natOf authorityValue "authority and cancellation epochs must not be negative"
  let cancellationValue ← fieldValue entries "cancellation_epoch"
  let cancellationEpoch ← natOf cancellationValue
    "authority and cancellation epochs must not be negative"
  let mode ← fieldEnum entries "mode" CampaignMode.ofValue? "CampaignMode"
  let objective ← fieldText entries "objective"
  let objectiveKind ← fieldEnum entries "objective_kind" ObjectiveKind.ofValue? "ObjectiveKind"
  let repositoryRemote ← fieldText entries "repository_remote"
  let gitRoot ← fieldText entries "git_root"
  let worktree ← fieldText entries "worktree"
  let branch ← fieldText entries "branch"
  let baseSha ← fieldText entries "base_sha"
  let allowedPaths ← fieldTexts entries "allowed_paths"
  let nodesValue ← fieldValue entries "nodes"
  let nodeItems ← orRaise nodesValue.items? .python "object is not iterable"
  let nodes ← nodeItems.mapM NodeSpec.fromDict
  let commandItems ← fieldItems entries "required_validation_commands"
  let requiredValidationCommands ← commandItems.mapM ValidationCommand.fromDict
  let requiredReviewCohort ← fieldTexts entries "required_review_cohort"
  let authority ← fieldValue entries "publication_authority"
  let budgetItems ← fieldItems entries "attempt_budgets"
  let attemptBudgets ← budgetItems.mapM AttemptBudget.fromDict
  let stopConditions ← fieldTexts entries "stop_conditions"
  let installedSourceCommit ← fieldText entries "installed_source_commit"
  let installedBundleDigest ← fieldText entries "installed_bundle_digest"
  let installTransaction ← fieldText entries "install_transaction"
  let autonomousRank ← intOf (entries.getD "autonomous_rank" (.int 1))
  let publicationAuthority ← frozenAuthority authority
  return {
    campaignId
    specificationRevision := specificationRevision.toNat
    specificationDigest := ""
    authorityEpoch, cancellationEpoch, mode, objective, objectiveKind, repositoryRemote, gitRoot
    worktree, branch, baseSha, allowedPaths, nodes, requiredValidationCommands, requiredReviewCohort
    publicationAuthority, attemptBudgets, stopConditions, installedSourceCommit
    installedBundleDigest, installTransaction
    protocolVersion := fieldTextD entries "protocol_version" "ccos-campaign-v1"
    schemaCompatibility := fieldTextD entries "schema_compatibility" "campaign-store-v1"
    hostCapabilityProbeVersion := fieldTextD entries "host_capability_probe_version"
      "native-bind-before-turn-scoped-tools-v3"
    autonomousRank := autonomousRank.toNat
    deadlineUtc := fieldOptional entries "deadline_utc" }

/-- No text of a true value is empty, so the last case is never met. -/
def CampaignSpecFields.build (spec : CampaignSpecFields) : Result CampaignSpec :=
  match h : spec.postInit with
  | .ok () =>
      if hdeadline : spec.deadlineUtc ≠ some "" then .ok ⟨spec, h, hdeadline⟩
      else fail .python "a deadline without text"
  | .error e => .error e

/-- The specification with a digest of its own. -/
def CampaignSpecFields.withDigest (spec : CampaignSpecFields) (digest : String) : CampaignSpecFields :=
  { spec with specificationDigest := digest }

/-- `CampaignSpec.from_dict`: the digest the document supplies, when there is one, is that of the
specification unless the caller does not ask for it. -/
def CampaignSpec.fromDict (value : Value) (verifyDigest : Bool := true) : Result CampaignSpec := do
  let entries ← document value
  let supplied := fieldTextD entries "specification_digest" ""
  let fields ← CampaignSpecFields.ofEntries entries
  let spec ← fields.build
  let computed := spec.computeDigest
  check .modelValidation (!(supplied != "" && verifyDigest && supplied != computed))
    "specification digest does not match the immutable specification"
  (fields.withDigest (if supplied != "" then supplied else computed)).build

end FromDict

/-! ### What `to_dict` writes is read back -/

section Fields

variable {m d : Mapping} {key : String}

/-- Under the key two mappings hold the same, once it is frozen. -/
def AgreeAt (m d : Mapping) (key : String) : Prop :=
  (m.get? key).map freeze = (d.get? key).map freeze

theorem agreeAt_of_freeze (h : Mapping.freeze m = Mapping.freeze d) (key : String) : AgreeAt m d key := by
  rw [AgreeAt, ← Mapping.get?_freeze, ← Mapping.get?_freeze, h]

theorem AgreeAt.none (h : AgreeAt m d key) (hd : d.get? key = none) : m.get? key = none := by
  rw [AgreeAt, hd] at h
  exact Option.map_eq_none_iff.mp h

theorem ok_bind {α β : Type} (a : α) (f : α → Result β) : ((.ok a : Result α) >>= f) = f a := rfl

/-- What a chain of calls returns has been through its first call. -/
theorem of_bind_eq_ok {α β : Type} {x : Result α} {f : α → Result β} {b : β} {P : Prop} (h : (x >>= f) = .ok b)
    (hP : ∀ a, x = .ok a → f a = .ok b → P) : P := by
  obtain ⟨a, ha, hf⟩ := bind_eq_ok.mp h
  exact hP a ha hf

theorem document_mapping (m : Mapping) : document (.mapping m) = .ok m := rfl

theorem fieldValue_eq {w : Value} (hw : Solid w) (h : AgreeAt m d key) (hd : d.get? key = some w) :
    fieldValue m key = .ok w := by
  rw [fieldValue, hw.read h hd]
  rfl

theorem solid_optionalText (t : Option String) : Solid (optionalText t) := by
  cases t with
  | none => exact .null
  | some s => exact .str s

theorem solid_texts (items : List String) : Solid (texts items) :=
  .tuple fun w hw => by
    obtain ⟨s, -, rfl⟩ := List.mem_map.mp hw
    exact .str s

theorem fieldItems_eq {w : List Value} (h : AgreeAt m d key) (hd : d.get? key = some (.tuple w)) :
    ∃ vs, fieldItems m key = .ok vs ∧ vs.map freeze = w.map freeze := by
  rw [AgreeAt, hd] at h
  obtain ⟨v, hv, hfreeze⟩ := Option.map_eq_some_iff.mp h
  rw [freeze_tuple] at hfreeze
  obtain ⟨vs, rfl, hvs⟩ := items_of_freeze hfreeze
  refine ⟨vs, ?_, hvs⟩
  rw [fieldItems, Mapping.getD, hv]
  rfl

theorem fieldItems_none (h : m.get? key = none) : fieldItems m key = .ok [] := by
  rw [fieldItems, Mapping.getD, h]
  rfl

/-- Items that freeze to what records are written as are read one by one. -/
theorem mapM_eq_of_freeze {α : Type} {f : Value → Result α} {g : α → Value} {l : List α}
    (hf : ∀ a ∈ l, ∀ v, freeze v = freeze (g a) → f v = .ok a) {vs : List Value}
    (h : vs.map freeze = (l.map g).map freeze) : vs.mapM f = .ok l := by
  induction l generalizing vs with
  | nil =>
      obtain rfl : vs = [] := by simpa using h
      rfl
  | cons a l ih =>
      obtain ⟨ha, hl⟩ := List.forall_mem_cons.mp hf
      cases vs with
      | nil => simp at h
      | cons v vs =>
          obtain ⟨hv, hvs⟩ := List.cons.inj h
          rw [List.mapM_cons, ha v hv, ih hl hvs]
          rfl

/-- What a set takes is frozen. -/
theorem solid_of_isScalar {v : Value} (h : isScalar v = true) : Solid v := by
  cases v with
  | null => exact .null
  | bool b => exact .bool b
  | int n => exact .int n
  | float q => exact .float q
  | str s => exact .str s
  | tuple _ | mapping _ => cases h

theorem BudgetToken.ofValue?_value (t : BudgetToken) : BudgetToken.ofValue? t.value = some t := by
  cases t <;> decide

theorem CampaignMode.ofValue?_value (k : CampaignMode) : CampaignMode.ofValue? k.value = some k := by
  cases k <;> decide

theorem ObjectiveKind.ofValue?_value (k : ObjectiveKind) : ObjectiveKind.ofValue? k.value = some k := by
  cases k <;> decide

theorem forall_of_mapM {α : Type} {f : Value → Result α} {P : α → Prop} {vs : List Value} {l : List α}
    (h : vs.mapM f = .ok l) (hf : ∀ v a, f v = .ok a → P a) : ∀ a ∈ l, P a := by
  have hall := mapM_eq_ok.mp h
  clear h
  induction hall with
  | nil => simp
  | cons hfirst _ ih => exact List.forall_mem_cons.mpr ⟨hf _ _ hfirst, ih⟩

theorem freeze_entries {v : Value} {m : Mapping} (h : freeze v = .mapping m) : Mapping.freeze m = m := by
  have hidem := freeze_freeze v
  rw [h, freeze_mapping] at hidem
  exact Value.mapping.inj hidem

variable [Runtime]

theorem fieldText_eq {s : String} (h : AgreeAt m d key) (hd : d.get? key = some (.str s)) :
    fieldText m key = .ok s := by
  rw [fieldText, fieldValue_eq (.str s) h hd]
  rfl

theorem fieldInt_eq {n : ℤ} (h : AgreeAt m d key) (hd : d.get? key = some (.int n)) :
    fieldInt m key = .ok n := by
  rw [fieldInt, fieldValue_eq (.int n) h hd]
  rfl

theorem natOf_natCast (n : ℕ) (message : String) : natOf (.int n) message = .ok n := by
  rw [natOf]
  simp only [intOf, Value.toInt, orRaise, check, Nat.cast_nonneg, decide_true, if_true, bind, Except.bind,
    Int.toNat_natCast]
  rfl

theorem fieldEnum_eq {α : Type} {ofValue? : String → Option α} {name : String} {a : α} {s : String}
    (hs : ofValue? s = some a) (h : AgreeAt m d key) (hd : d.get? key = some (.str s)) :
    fieldEnum m key ofValue? name = .ok a := by
  rw [fieldEnum, fieldValue_eq (.str s) h hd]
  show orRaise (ofValue? s) _ _ = _
  rw [hs]
  rfl

theorem fieldTextD_eq {s default : String} (h : AgreeAt m d key) (hd : d.get? key = some (.str s)) :
    fieldTextD m key default = s := by
  rw [fieldTextD, Mapping.getD, (Solid.str s).read h hd]
  rfl

theorem fieldOptional_eq {t : Option String} (ht : t ≠ some "") (h : AgreeAt m d key)
    (hd : d.get? key = some (optionalText t)) : fieldOptional m key = t := by
  rw [fieldOptional, Mapping.read, Mapping.getD, (solid_optionalText t).read h hd]
  cases t with
  | none => rfl
  | some s =>
      have hne : s ≠ "" := fun heq => ht (heq ▸ rfl)
      simp [Value.truthy, hne]

theorem fieldTexts_eq {items : List String} (h : AgreeAt m d key) (hd : d.get? key = some (texts items)) :
    fieldTexts m key = .ok items := by
  rw [fieldTexts, fieldItems, Mapping.getD, (solid_texts items).read h hd]
  show Except.ok ((items.map Value.str).map decodedText) = _
  rw [List.map_map]
  exact congrArg Except.ok (List.map_id items)

end Fields

section RoundTrip

variable [Runtime]

theorem ValidationCommand.build_self (c : ValidationCommand) :
    c.toValidationCommandFields.build = .ok c := by
  unfold ValidationCommandFields.build
  split
  · rfl
  · next h => exact absurd (h.symm.trans c.valid) (by simp)

/-- A command as `from_dict` makes it: its policy is frozen and its digest is case-folded. -/
structure ValidationCommandFields.Stored (c : ValidationCommandFields) : Prop where
  policy : ∀ p, c.correctionPolicy = some p → Mapping.freeze p = p
  status : c.expectedWorktreeCondition = "EXACT_STATUS" →
    c.expectedStatusSha256.map casefold = c.expectedStatusSha256

theorem ValidationCommandFields.fromDict_toDict {c : ValidationCommandFields} (hc : c.Stored) {v : Value}
    (h : freeze v = freeze c.toDict) : ValidationCommandFields.fromDict v = .ok c := by
  rw [ValidationCommandFields.toDict, freeze_mapping] at h
  obtain ⟨m, rfl, hm⟩ := entries_of_freeze h
  have hget := agreeAt_of_freeze hm
  have hstatus : (match m.read "expected_status_sha256" with
      | .null => none
      | v => some (decodedText v)) = c.expectedStatusSha256 := by
    rw [Mapping.read, Mapping.getD, (solid_optionalText c.expectedStatusSha256).read (hget _) rfl]
    cases c.expectedStatusSha256 <;> rfl
  have hpolicy : frozenPolicy (m.read "correction_policy") = .ok c.correctionPolicy := by
    have hagree := hget "correction_policy"
    cases hdeclared : c.correctionPolicy with
    | none =>
        rw [hdeclared] at hagree
        rw [Mapping.read, Mapping.getD, hagree.none rfl]
        rfl
    | some policy =>
        rw [hdeclared] at hagree
        obtain ⟨v, hv, hfreeze⟩ := Option.map_eq_some_iff.mp hagree
        rw [Mapping.read, Mapping.getD, hv, frozenPolicy, Option.getD_some, hfreeze, freeze_mapping,
          hc.policy policy hdeclared]
        rfl
  have hexit : intOf (m.getD "required_exit_code" (.int 0)) = .ok c.requiredExitCode := by
    rw [Mapping.getD, (Solid.int c.requiredExitCode).read (hget _) rfl]
    rfl
  rw [ValidationCommandFields.fromDict]
  simp only [document_mapping, fieldText_eq (hget "command_id") rfl,
    fieldText_eq (hget "executable") rfl, fieldTexts_eq (hget "arguments") rfl,
    fieldText_eq (hget "working_directory") rfl, fieldTexts_eq (hget "environment_allowlist") rfl,
    fieldInt_eq (hget "timeout_seconds") rfl, fieldInt_eq (hget "output_limit_bytes") rfl,
    fieldText_eq (hget "expected_worktree_condition") rfl, hstatus, hexit, hpolicy, bind, Except.bind,
    Int.toNat_natCast]
  refine congrArg Except.ok ?_
  have hdigest : (if c.expectedWorktreeCondition = "EXACT_STATUS" then c.expectedStatusSha256.map casefold
      else c.expectedStatusSha256) = c.expectedStatusSha256 := by
    split
    · next hexact => exact hc.status hexact
    · rfl
  rw [hdigest]

/-- A command is read back from what it is written as. -/
theorem ValidationCommand.fromDict_toDict {c : ValidationCommand} (hc : c.Stored) {v : Value}
    (h : freeze v = freeze c.toDict) : ValidationCommand.fromDict v = .ok c := by
  rw [ValidationCommand.fromDict, ValidationCommandFields.fromDict_toDict hc h, ok_bind, c.build_self]

theorem AttemptBudget.fromDict_toDict (b : AttemptBudget) {v : Value} (h : freeze v = freeze b.toDict) :
    AttemptBudget.fromDict v = .ok b := by
  rw [AttemptBudget.toDict, freeze_mapping] at h
  obtain ⟨m, rfl, hm⟩ := entries_of_freeze h
  have hget := agreeAt_of_freeze hm
  rw [AttemptBudget.fromDict]
  simp only [document, Value.asMapping?, orRaise,
    fieldEnum_eq (BudgetToken.ofValue?_value b.token) (hget "token") rfl,
    fieldValue_eq (.int b.limit) (hget "limit") rfl, natOf_natCast, bind, Except.bind]
  rfl

theorem NodeSpec.build_self (n : NodeSpec) : n.toNodeSpecFields.build = .ok n := by
  unfold NodeSpecFields.build
  split
  · rw [dif_pos n.deadline_ne_blank]
  · next h => exact absurd (h.symm.trans n.valid) (by simp)

/-- A node as `from_dict` makes it: its scenarios are frozen. -/
def NodeSpecFields.Stored (n : NodeSpecFields) : Prop :=
  ∀ scenario ∈ n.acceptanceScenarios, Mapping.freeze scenario = scenario

theorem NodeSpec.tools_isScalar (n : NodeSpec) : ∀ tool ∈ n.requiredTools, isScalar tool = true := by
  have h := n.valid
  simp only [NodeSpecFields.postInit, bind_eq_ok, check_eq_ok, exists_const] at h
  obtain ⟨_, -, _, -, -, -, _, -, htools, -⟩ := h
  exact List.all_eq_true.mp htools

theorem NodeSpecFields.fromDict_toDict {n : NodeSpecFields} (hn : n.Stored)
    (htools : ∀ tool ∈ n.requiredTools, isScalar tool = true) (hdeadline : n.deadlineUtc ≠ some "") {v : Value}
    (h : freeze v = freeze n.toDict) : NodeSpecFields.fromDict v = .ok n := by
  rw [NodeSpecFields.toDict, freeze_mapping] at h
  obtain ⟨m, rfl, hm⟩ := entries_of_freeze h
  have hget := agreeAt_of_freeze hm
  -- the two fields that are left out when they are empty
  have hscenarios : ∃ items, fieldItems m "acceptance_scenarios" = .ok items ∧
      items.map freeze = n.acceptanceScenarios.map Value.mapping := by
    have hagree := hget "acceptance_scenarios"
    by_cases hempty : n.acceptanceScenarios = []
    · refine ⟨[], fieldItems_none (hagree.none ?_), by rw [hempty]; rfl⟩
      rw [if_pos hempty]
      split <;> rfl
    · obtain ⟨items, hitems, hfreeze⟩ := fieldItems_eq hagree
        (w := n.acceptanceScenarios.map Value.mapping) (by rw [if_neg hempty]; rfl)
      refine ⟨items, hitems, hfreeze.trans ?_⟩
      rw [List.map_map]
      exact List.map_congr_left fun scenario hs => congrArg Value.mapping (hn scenario hs)
  have hrequired : fieldItems m "required_tools" = .ok n.requiredTools := by
    have hagree := hget "required_tools"
    by_cases hempty : n.requiredTools = []
    · rw [fieldItems_none (hagree.none ?_), hempty]
      rw [if_pos hempty]
      split <;> rfl
    · have hsolid : Solid (.tuple n.requiredTools) := .tuple fun tool ht => solid_of_isScalar (htools tool ht)
      rw [fieldItems, Mapping.getD, hsolid.read hagree ?_]
      · rfl
      · rw [if_neg hempty]
        split <;> rfl
  have hreview : m.getD "requires_review" (.bool true) = .bool true := by
    rw [Mapping.getD, (hget "requires_review").none ?_]
    · rfl
    · split <;> split <;> rfl
  obtain ⟨items, hitems, hfreeze⟩ := hscenarios
  have hparse : (items.mapM fun item => orRaise (freeze item).asMapping? .modelValidation
      "acceptance scenario must be an object") = .ok n.acceptanceScenarios :=
    mapM_eq_of_freeze (g := Value.mapping) (fun scenario hs v hv => by
      rw [hv, freeze_mapping, hn scenario hs]
      rfl) (by
      rw [hfreeze, List.map_map]
      exact List.map_congr_left fun scenario hs => (congrArg Value.mapping (hn scenario hs)).symm)
  rw [NodeSpecFields.fromDict]
  simp only [document_mapping, hreview, check, beq_self_eq_true, if_true,
    fieldText_eq (hget "node_id") rfl, fieldText_eq (hget "objective") rfl,
    fieldTexts_eq (hget "dependencies") rfl, fieldTexts_eq (hget "allowed_paths") rfl,
    fieldTexts_eq (hget "validation_command_ids") rfl, hitems, hrequired, bind, Except.bind,
    fieldOptional_eq hdeadline (hget "deadline_utc") rfl, hparse]
  rfl

/-- A node is read back from what it is written as. -/
theorem NodeSpec.fromDict_toDict {n : NodeSpec} (hn : n.Stored) {v : Value}
    (h : freeze v = freeze n.toDict) : NodeSpec.fromDict v = .ok n := by
  rw [NodeSpec.fromDict, NodeSpecFields.fromDict_toDict hn n.tools_isScalar n.deadline_ne_blank h, ok_bind,
    n.build_self]

/-- A specification as `from_dict` makes it. -/
structure CampaignSpecFields.Stored (spec : CampaignSpecFields) : Prop where
  authority : Mapping.freeze spec.publicationAuthority = spec.publicationAuthority
  nodes : ∀ n ∈ spec.nodes, n.Stored
  commands : ∀ c ∈ spec.requiredValidationCommands, c.Stored

theorem CampaignSpecFields.postInit_withDigest (spec : CampaignSpecFields) (digest : String) :
    (spec.withDigest digest).postInit = spec.postInit := rfl

theorem CampaignSpecFields.withDigest_withDigest (spec : CampaignSpecFields) (first second : String) :
    (spec.withDigest first).withDigest second = spec.withDigest second := rfl

theorem CampaignSpecFields.computeDigest_withDigest (spec : CampaignSpecFields) (digest : String) :
    (spec.withDigest digest).computeDigest = spec.computeDigest := rfl

theorem CampaignSpecFields.ofEntries_toDict {spec : CampaignSpecFields} (hspec : spec.Stored)
    (hdeadline : spec.deadlineUtc ≠ some "") {m : Mapping}
    (hget : ∀ key ≠ "specification_digest", AgreeAt m spec.toDict key) :
    CampaignSpecFields.ofEntries m = .ok (spec.withDigest "") := by
  have hnodes : ∃ items, fieldValue m "nodes" = .ok (.tuple items) ∧
      items.mapM NodeSpec.fromDict = .ok spec.nodes := by
    obtain ⟨v, hv, hfreeze⟩ := Option.map_eq_some_iff.mp
      ((hget "nodes" (by decide)).trans (congrArg (Option.map freeze)
        (show Mapping.get? spec.toDict "nodes" = some (.tuple (spec.nodes.map fun n => n.toDict)) from rfl)))
    rw [freeze_tuple] at hfreeze
    obtain ⟨items, rfl, hitems⟩ := items_of_freeze hfreeze
    refine ⟨items, by rw [fieldValue, hv]; rfl, mapM_eq_of_freeze (fun n hn v hv => ?_) hitems⟩
    exact NodeSpec.fromDict_toDict (hspec.nodes n hn) hv
  have hcommands : ∃ items, fieldItems m "required_validation_commands" = .ok items ∧
      items.mapM ValidationCommand.fromDict = .ok spec.requiredValidationCommands := by
    obtain ⟨items, hitems, hfreeze⟩ := fieldItems_eq (hget "required_validation_commands" (by decide))
      (w := spec.requiredValidationCommands.map fun c => c.toDict) rfl
    refine ⟨items, hitems, mapM_eq_of_freeze (fun c hc v hv => ?_) hfreeze⟩
    exact ValidationCommand.fromDict_toDict (hspec.commands c hc) hv
  have hbudgets : ∃ items, fieldItems m "attempt_budgets" = .ok items ∧
      items.mapM AttemptBudget.fromDict = .ok spec.attemptBudgets := by
    obtain ⟨items, hitems, hfreeze⟩ := fieldItems_eq (hget "attempt_budgets" (by decide))
      (w := spec.attemptBudgets.map fun b => b.toDict) rfl
    exact ⟨items, hitems, mapM_eq_of_freeze (fun b _ v hv => AttemptBudget.fromDict_toDict b hv) hfreeze⟩
  have hauthority : ∃ v, fieldValue m "publication_authority" = .ok v ∧
      frozenAuthority v = .ok spec.publicationAuthority := by
    obtain ⟨v, hv, hfreeze⟩ := Option.map_eq_some_iff.mp
      ((hget "publication_authority" (by decide)).trans (congrArg (Option.map freeze)
        (show Mapping.get? spec.toDict "publication_authority" = some (.mapping spec.publicationAuthority)
          from rfl)))
    refine ⟨v, by rw [fieldValue, hv]; rfl, ?_⟩
    rw [frozenAuthority, hfreeze, freeze_mapping, hspec.authority]
    rfl
  have hrank : intOf (m.getD "autonomous_rank" (.int 1)) = .ok (spec.autonomousRank : ℤ) := by
    rw [Mapping.getD, (Solid.int spec.autonomousRank).read (hget "autonomous_rank" (by decide)) rfl]
    rfl
  obtain ⟨nodeItems, hnodeItems, hnodes⟩ := hnodes
  obtain ⟨commandItems, hcommandItems, hcommands⟩ := hcommands
  obtain ⟨budgetItems, hbudgetItems, hbudgets⟩ := hbudgets
  obtain ⟨authority, hauthorityValue, hauthority⟩ := hauthority
  have text : ∀ key {s}, key ≠ "specification_digest" → Mapping.get? spec.toDict key = some (.str s) →
      fieldText m key = .ok s := fun _ _ hkey hd => fieldText_eq (hget _ hkey) hd
  have list : ∀ key {items}, key ≠ "specification_digest" →
      Mapping.get? spec.toDict key = some (texts items) → fieldTexts m key = .ok items :=
    fun _ _ hkey hd => fieldTexts_eq (hget _ hkey) hd
  have textD : ∀ key {s default}, key ≠ "specification_digest" →
      Mapping.get? spec.toDict key = some (.str s) → fieldTextD m key default = s :=
    fun _ _ _ hkey hd => fieldTextD_eq (hget _ hkey) hd
  rw [CampaignSpecFields.ofEntries]
  simp only [bind, Except.bind, orRaise, Value.items?,
    text "campaign_id" (by decide) rfl,
    fieldInt_eq (hget "specification_revision" (by decide)) rfl,
    fieldValue_eq (.int spec.authorityEpoch) (hget "authority_epoch" (by decide)) rfl,
    fieldValue_eq (.int spec.cancellationEpoch) (hget "cancellation_epoch" (by decide)) rfl,
    natOf_natCast, Int.toNat_natCast,
    fieldEnum_eq (CampaignMode.ofValue?_value spec.mode) (hget "mode" (by decide)) rfl,
    text "objective" (by decide) rfl,
    fieldEnum_eq (ObjectiveKind.ofValue?_value spec.objectiveKind) (hget "objective_kind" (by decide)) rfl,
    text "repository_remote" (by decide) rfl, text "git_root" (by decide) rfl,
    text "worktree" (by decide) rfl, text "branch" (by decide) rfl,
    text "base_sha" (by decide) rfl, list "allowed_paths" (by decide) rfl,
    hnodeItems, hnodes, hcommandItems, hcommands, hbudgetItems, hbudgets, hauthorityValue, hauthority,
    list "required_review_cohort" (by decide) rfl,
    list "stop_conditions" (by decide) rfl,
    text "installed_source_commit" (by decide) rfl,
    text "installed_bundle_digest" (by decide) rfl,
    text "install_transaction" (by decide) rfl,
    textD "protocol_version" (by decide) rfl,
    textD "schema_compatibility" (by decide) rfl,
    textD "host_capability_probe_version" (by decide) rfl,
    hrank, fieldOptional_eq hdeadline (hget "deadline_utc" (by decide)) rfl]
  rfl

theorem CampaignSpecFields.build_eq (spec : CampaignSpecFields) (h : spec.postInit = .ok ())
    (hdeadline : spec.deadlineUtc ≠ some "") : spec.build = .ok ⟨spec, h, hdeadline⟩ := by
  unfold CampaignSpecFields.build
  split
  · rw [dif_pos hdeadline]
  · next herror => exact absurd (herror.symm.trans h) (by simp)

theorem CampaignSpecFields.build_eq_ok {fields : CampaignSpecFields} {spec : CampaignSpec}
    (h : fields.build = .ok spec) : spec.toCampaignSpecFields = fields := by
  unfold CampaignSpecFields.build at h
  split at h
  · split at h
    · obtain rfl := Except.ok.inj h
      rfl
    · cases h
  · cases h

/-- What `from_dict` makes of a document that holds what a specification is written as, under a digest it
accepts. -/
theorem CampaignSpec.fromDict_mapping {spec : CampaignSpec} (hspec : spec.Stored) {m : Mapping}
    (hget : ∀ key ≠ "specification_digest", AgreeAt m spec.toDict key) {verifyDigest : Bool} {supplied : String}
    (hsupplied : fieldTextD m "specification_digest" "" = supplied)
    (haccepted : supplied = "" ∨ verifyDigest = false ∨ supplied = spec.computeDigest)
    (hdigest : spec.specificationDigest = if supplied != "" then supplied else spec.computeDigest) :
    CampaignSpec.fromDict (.mapping m) verifyDigest = .ok spec := by
  have hbuild : ∀ digest, (spec.withDigest digest).build
      = .ok ⟨spec.withDigest digest, spec.valid, spec.deadline_ne_blank⟩ := fun digest =>
    CampaignSpecFields.build_eq (spec.withDigest digest) spec.valid spec.deadline_ne_blank
  have hcheck : (!(supplied != "" && verifyDigest && supplied != spec.computeDigest)) = true := by
    rcases haccepted with rfl | rfl | rfl <;> simp
  rw [CampaignSpec.fromDict]
  simp only [document_mapping, hsupplied, bind, Except.bind,
    CampaignSpecFields.ofEntries_toDict hspec spec.deadline_ne_blank hget, hbuild "",
    CampaignSpecFields.computeDigest_withDigest, CampaignSpecFields.withDigest_withDigest, hcheck, check,
    if_true, ← hdigest]
  exact hbuild spec.specificationDigest

/-! ### Accepted specifications -/

theorem NodeSpec.stored_of_fromDict {v : Value} {n : NodeSpec} (h : NodeSpec.fromDict v = .ok n) :
    n.Stored := by
  simp only [NodeSpec.fromDict, bind_eq_ok] at h
  obtain ⟨fields, hfields, hbuild⟩ := h
  have hsame : n.toNodeSpecFields = fields := by
    unfold NodeSpecFields.build at hbuild
    split at hbuild
    · split at hbuild
      · obtain rfl := Except.ok.inj hbuild
        rfl
      · cases hbuild
    · cases hbuild
  simp only [NodeSpecFields.fromDict, bind_eq_ok, pure_eq_ok] at hfields
  obtain ⟨_, -, _, -, _, -, _, -, _, -, _, -, _, -, items, -, _, -, scenarios, hscenarios, rfl⟩ := hfields
  rw [NodeSpecFields.Stored, hsame]
  refine forall_of_mapM hscenarios fun item scenario hitem => ?_
  rw [orRaise_eq_ok] at hitem
  refine freeze_entries (v := item) ?_
  cases hfreeze : freeze item with
  | mapping m =>
      rw [hfreeze] at hitem
      exact congrArg Value.mapping (Option.some.inj hitem)
  | null | bool _ | int _ | float _ | str _ | tuple _ =>
      rw [hfreeze] at hitem
      cases hitem

/-- A digest that a command was built with is its own folding. -/
theorem ValidationCommand.status_folded (c : ValidationCommand)
    (hexact : c.expectedWorktreeCondition = "EXACT_STATUS") :
    c.expectedStatusSha256.map casefold = c.expectedStatusSha256 := by
  have h := c.valid
  simp only [ValidationCommandFields.postInit, bind_eq_ok, check_eq_ok, exists_const, if_pos hexact] at h
  obtain ⟨_, -, _, -, _, -, -, hstatus, -⟩ := h
  rw [Bool.and_eq_true, beq_iff_eq] at hstatus
  cases hdigest : c.expectedStatusSha256 with
  | none => rfl
  | some digest =>
      rw [hdigest] at hstatus
      exact congrArg some hstatus.1

theorem ValidationCommand.stored_of_fromDict {v : Value} {c : ValidationCommand}
    (h : ValidationCommand.fromDict v = .ok c) : c.Stored := by
  simp only [ValidationCommand.fromDict, bind_eq_ok] at h
  obtain ⟨fields, hfields, hbuild⟩ := h
  have hsame : c.toValidationCommandFields = fields := by
    unfold ValidationCommandFields.build at hbuild
    split at hbuild
    · obtain rfl := Except.ok.inj hbuild
      rfl
    · cases hbuild
  refine ⟨fun policy hpolicy => ?_, c.status_folded⟩
  simp only [ValidationCommandFields.fromDict, bind_eq_ok, pure_eq_ok] at hfields
  obtain ⟨_, -, _, -, _, -, _, -, _, -, _, -, _, -, _, -, _, -, _, -, declared, hdeclared, rfl⟩ := hfields
  rw [hsame] at hpolicy
  obtain rfl : declared = some policy := hpolicy
  unfold frozenPolicy at hdeclared
  split at hdeclared
  · cases hdeclared
  · next hfreeze =>
      obtain rfl := Option.some.inj (pure_eq_ok.mp hdeclared)
      exact freeze_entries hfreeze
  · cases hdeclared

theorem CampaignSpecFields.stored_of_ofEntries {m : Mapping} {fields : CampaignSpecFields}
    (h : CampaignSpecFields.ofEntries m = .ok fields) : fields.Stored := by
  unfold CampaignSpecFields.ofEntries at h
  -- from the campaign identifier to the allowed paths
  iterate 15 refine of_bind_eq_ok h fun _ _ h => ?_
  refine of_bind_eq_ok h fun _ _ h => of_bind_eq_ok h fun _ _ h => of_bind_eq_ok h fun nodes hnodes h => ?_
  refine of_bind_eq_ok h fun _ _ h => of_bind_eq_ok h fun commands hcommands h => ?_
  -- from the review cohort to the rank
  iterate 9 refine of_bind_eq_ok h fun _ _ h => ?_
  refine of_bind_eq_ok h fun authority hauthority h => ?_
  obtain rfl := pure_eq_ok.mp h
  refine ⟨?_, forall_of_mapM hnodes fun v n => NodeSpec.stored_of_fromDict,
    forall_of_mapM hcommands fun v c => ValidationCommand.stored_of_fromDict⟩
  unfold frozenAuthority at hauthority
  split at hauthority
  · next hfreeze =>
      obtain rfl := pure_eq_ok.mp hauthority
      exact freeze_entries hfreeze
  · simp [bind_eq_ok] at hauthority

/-- What `from_dict` has made sure of. -/
theorem CampaignSpec.fromDict_eq_ok {value : Value} {verifyDigest : Bool} {spec : CampaignSpec}
    (h : CampaignSpec.fromDict value verifyDigest = .ok spec) :
    spec.Stored ∧ ∃ supplied,
      (supplied = "" ∨ verifyDigest = false ∨ supplied = spec.computeDigest) ∧
      spec.specificationDigest = if supplied != "" then supplied else spec.computeDigest := by
  simp only [CampaignSpec.fromDict, bind_eq_ok, check_eq_ok, exists_const] at h
  obtain ⟨m, -, fields, hfields, built, hbuilt, hcheck, hbuild⟩ := h
  have hfirst := CampaignSpecFields.build_eq_ok hbuilt
  have hsame := CampaignSpecFields.build_eq_ok hbuild
  have hcompute : spec.computeDigest = built.computeDigest := by
    rw [hsame, hfirst]
    rfl
  refine ⟨?_, fieldTextD m "specification_digest" "", ?_, ?_⟩
  · rw [hsame]
    have hstored := CampaignSpecFields.stored_of_ofEntries hfields
    exact ⟨hstored.authority, hstored.nodes, hstored.commands⟩
  · rw [hcompute]
    by_cases hempty : fieldTextD m "specification_digest" "" = ""
    · exact .inl hempty
    · cases hverify : verifyDigest with
      | false => exact .inr (.inl rfl)
      | true =>
          rw [hverify] at hcheck
          exact .inr (.inr (by simpa [hempty] using hcheck))
  · rw [hcompute, hsame]
    rfl

/-- A verified specification carries its own digest. -/
theorem CampaignSpec.digest_eq {value : Value} {spec : CampaignSpec} (h : CampaignSpec.fromDict value = .ok spec) :
    spec.specificationDigest = spec.computeDigest := by
  obtain ⟨-, supplied, haccepted, hdigest⟩ := CampaignSpec.fromDict_eq_ok h
  rw [hdigest]
  split
  · next hne =>
      rcases haccepted with rfl | hverify | heq
      · simp at hne
      · cases hverify
      · exact heq
  · rfl

/-- An accepted specification is read back from its own dictionary. -/
theorem CampaignSpec.fromDict_toDict {value : Value} {verifyDigest : Bool} {spec : CampaignSpec}
    (h : CampaignSpec.fromDict value verifyDigest = .ok spec) :
    CampaignSpec.fromDict (.mapping spec.toDict) verifyDigest = .ok spec := by
  obtain ⟨hstored, supplied, haccepted, hdigest⟩ := CampaignSpec.fromDict_eq_ok h
  have hread : fieldTextD spec.toDict "specification_digest" "" = spec.specificationDigest := rfl
  refine CampaignSpec.fromDict_mapping hstored (fun _ _ => rfl) hread ?_ ?_
  · by_cases hempty : supplied = ""
    · rw [hempty, if_neg (by simp)] at hdigest
      exact .inr (.inr hdigest)
    · rw [if_pos (by simpa using hempty)] at hdigest
      rw [hdigest]
      exact haccepted
  · by_cases hempty : spec.specificationDigest = ""
    · rw [if_neg (by simp [hempty])]
      by_cases hsupplied : supplied = ""
      · rw [hsupplied, if_neg (by simp)] at hdigest
        exact hdigest
      · rw [if_pos (by simpa using hsupplied)] at hdigest
        exact absurd (hdigest.symm.trans hempty) hsupplied
    · rw [if_pos (by simpa using hempty)]

/-- Specifications that freeze to the same dictionary, their digests apart, are equal. -/
theorem CampaignSpec.eq_of_freeze {a b : CampaignSpec} (ha : a.Stored) (hb : b.Stored)
    (hda : a.specificationDigest = a.computeDigest) (hdb : b.specificationDigest = b.computeDigest)
    (h : Mapping.freeze (Mapping.erase a.toDict "specification_digest")
      = Mapping.freeze (Mapping.erase b.toDict "specification_digest")) : a = b := by
  have hread : fieldTextD (Mapping.erase a.toDict "specification_digest") "specification_digest" "" = "" := rfl
  have hfirst : CampaignSpec.fromDict (.mapping (Mapping.erase a.toDict "specification_digest")) = .ok a :=
    CampaignSpec.fromDict_mapping ha
      (fun _ hkey => congrArg (Option.map freeze) (Mapping.get?_erase_of_ne _ hkey)) hread (.inl rfl) hda
  have hsecond : CampaignSpec.fromDict (.mapping (Mapping.erase a.toDict "specification_digest")) = .ok b :=
    CampaignSpec.fromDict_mapping hb
      (fun key hkey => (agreeAt_of_freeze h key).trans
        (congrArg (Option.map freeze) (Mapping.get?_erase_of_ne _ hkey)))
      hread (.inl rfl) hdb
  exact Except.ok.inj (hfirst.symm.trans hsecond)

/-- **Specification identity.**  What an accepted specification is written as is accepted as that
specification, and accepted specifications of one digest are equal. -/
theorem specification_identity [FloatReader] (laws : FloatLaws)
    (hsha : Set.InjOn Runtime.sha256 (Set.range canonicalJson)) :
    (∀ value verifyDigest spec, CampaignSpec.fromDict value verifyDigest = .ok spec →
      CampaignSpec.fromDict (.mapping spec.toDict) verifyDigest = .ok spec) ∧
    ∀ value value' spec spec', CampaignSpec.fromDict value = .ok spec →
      CampaignSpec.fromDict value' = .ok spec' → spec.specificationDigest = spec'.specificationDigest →
        spec = spec' := by
  refine ⟨fun _ _ _ => CampaignSpec.fromDict_toDict, fun value value' spec spec' h h' hdigest => ?_⟩
  rw [CampaignSpec.digest_eq h, CampaignSpec.digest_eq h'] at hdigest
  have hjson := hsha (Set.mem_range_self _) (Set.mem_range_self _) hdigest
  have hfreeze := freeze_eq_of_canonicalJson laws hjson
  rw [freeze_mapping, freeze_mapping] at hfreeze
  exact CampaignSpec.eq_of_freeze (CampaignSpec.fromDict_eq_ok h).1 (CampaignSpec.fromDict_eq_ok h').1
    (CampaignSpec.digest_eq h) (CampaignSpec.digest_eq h') (Value.mapping.inj hfreeze)

end RoundTrip

end CodingOS.Campaign

namespace CodingOS.Campaign.RecordSample

open CodingOS.Python

/-- A process that prints a float as a fraction and knows ASCII. -/
scoped instance process : Runtime where
  casefoldUnicode s := s
  lowerUnicode s := s
  isPrintable c := 32 ≤ c.toNat && c.toNat < 127
  decimalDigit c := if c.isDigit then some (c.toNat - 48) else none
  floatRepr q := intText q.num ++ "." ++ intText q.den
  sha256 s := s
  sha512 bytes := bytes
  resolvedPath s := s
  absolutePath s := s

scoped instance fractions : FloatReader where
  float text := do
    let num ← readInt (String.ofList (text.toList.takeWhile (· != '.')))
    let den ← readInt (String.ofList ((text.toList.dropWhile (· != '.')).drop 1))
    some (num / den)

theorem fraction_chars (q : ℚ) :
    (Runtime.floatRepr q).toList = (intText q.num).toList ++ '.' :: (intText q.den).toList := by
  show (intText q.num ++ "." ++ intText q.den).toList = _
  simp

theorem dot_not_mem (n : ℤ) : ∀ c ∈ (intText n).toList, (c != '.') = true := by
  intro c hc
  have hfloat := List.any_eq_false.mp (isNumberChar_intText n).2 c hc
  simp only [Bool.or_eq_true, beq_iff_eq, not_or] at hfloat
  simpa using hfloat.1

theorem laws : FloatLaws where
  chars q := by
    rw [fraction_chars]
    intro c hc
    rcases List.mem_append.mp hc with hc | hc
    · exact (isNumberChar_intText q.num).1 c hc
    · rcases List.mem_cons.mp hc with rfl | hc
      · decide
      · exact (isNumberChar_intText q.den).1 c hc
  mark q := by
    rw [fraction_chars]
    exact List.any_eq_true.mpr ⟨'.', List.mem_append_right _ List.mem_cons_self, rfl⟩
  read q := by
    show (do
      let num ← readInt (String.ofList ((Runtime.floatRepr q).toList.takeWhile (· != '.')))
      let den ← readInt (String.ofList (((Runtime.floatRepr q).toList.dropWhile (· != '.')).drop 1))
      some ((num : ℚ) / den)) = some q
    rw [fraction_chars, List.takeWhile_append_of_pos (dot_not_mem q.num),
      List.dropWhile_append_of_pos (dot_not_mem q.num)]
    simp only [List.takeWhile_cons, List.dropWhile_cons, bne_self_eq_false, Bool.false_eq_true, if_false,
      List.append_nil, List.drop_succ_cons, List.drop_zero, String.ofList_toList, readInt_intText,
      Option.bind_eq_bind, Option.bind_some]
    exact congrArg some (Rat.num_div_den q)

theorem no_deadline : (none : Option String) ≠ some "" := by decide

def node : NodeSpec where
  nodeId := "n"
  objective := "change"
  allowedPaths := ["a.py"]
  validationCommandIds := ["unit"]
  valid := by decide
  deadline_ne_blank := no_deadline

def command : ValidationCommand where
  commandId := "unit"
  executable := "python"
  arguments := ["-m", "unittest"]
  workingDirectory := "/w"
  environmentAllowlist := []
  timeoutSeconds := 60
  outputLimitBytes := 1000
  expectedWorktreeCondition := "CLEAN"
  valid := by decide

def fields : CampaignSpecFields where
  campaignId := "c"
  specificationRevision := 1
  specificationDigest := ""
  authorityEpoch := 1
  cancellationEpoch := 0
  mode := .automated
  objective := "ship"
  objectiveKind := .productCode
  repositoryRemote := "r"
  gitRoot := "/g"
  worktree := "/w"
  branch := "b"
  baseSha := "0"
  allowedPaths := ["a.py"]
  nodes := [node]
  requiredValidationCommands := [command]
  requiredReviewCohort := ["alpha"]
  publicationAuthority := [
    ("allowed_effects", .tuple [.str "PUSH", .str "CREATE_PULL_REQUEST"]),
    ("automated", .bool true)]
  attemptBudgets := [⟨.childStart, 4⟩]
  stopConditions := ["done"]
  installedSourceCommit := "i"
  installedBundleDigest := "d"
  installTransaction := "t"
  autonomousRank := 4

/-- The sample specification, under its own digest. -/
def spec : CampaignSpec where
  toCampaignSpecFields := fields.withDigest fields.computeDigest
  valid := by decide
  deadline_ne_blank := by decide

theorem spec_stored : spec.Stored where
  authority := by decide
  nodes n hn := by
    obtain rfl := List.mem_singleton.mp hn
    exact fun scenario hs => by cases hs
  commands c hc := by
    obtain rfl := List.mem_singleton.mp hc
    exact ⟨nofun, fun hexact => absurd (show "CLEAN" = "EXACT_STATUS" from hexact) (by decide)⟩

/-- A document without a digest is accepted as the specification. -/
theorem document_accepted :
    CampaignSpec.fromDict (.mapping (Mapping.erase spec.toDict "specification_digest")) = .ok spec :=
  CampaignSpec.fromDict_mapping spec_stored
    (fun _ hkey => congrArg (Option.map freeze) (Mapping.get?_erase_of_ne _ hkey)) rfl (.inl rfl) rfl

theorem identity_sample :
    CampaignSpec.fromDict (.mapping spec.toDict) = .ok spec ∧
      ∀ value other, CampaignSpec.fromDict value = .ok other →
        other.specificationDigest = spec.specificationDigest → other = spec := by
  have h := specification_identity laws (Function.injective_id.injOn)
  exact ⟨h.1 _ _ _ document_accepted, fun value other hother hdigest =>
    h.2 value _ other spec hother document_accepted hdigest⟩

end CodingOS.Campaign.RecordSample
