import CodingOS.Python.JsonSchema

/-!
# The schema of a route decision

`route-decision.schema.json`, definition by definition, and what its conditionals say of a decision that
names a worker or admits a local execution.
-/

namespace CodingOS.CapabilityIndex

open CodingOS.Python

namespace DecisionSchema

/-! ### Patterns -/

def sha256Pattern : Pattern where
  body := [('a', 'f'), ('0', '9')]
  least := 64
  most := 64

def sha256OrEmptyPattern : Pattern := { sha256Pattern with orEmpty := true }

def requestIdPattern : Pattern where
  body := [('A', 'Z'), ('a', 'z'), ('0', '9'), ('.', '.'), ('_', '_'), (':', ':'), ('-', '-')]
  least := 1
  most := 160

def reasonCodePattern : Pattern where
  head := some [('A', 'Z')]
  body := [('A', 'Z'), ('0', '9'), ('_', '_')]
  least := 1
  most := 63

def identifierPattern : Pattern where
  head := some [('a', 'z')]
  body := [('a', 'z'), ('0', '9'), ('_', '_')]
  least := 0
  most := 63

/-! ### Parts -/

def string : Schema := .type [.string]

def nonemptyString : Schema := .all [.type [.string], .minLength 1]

def boolean : Schema := .type [.boolean]

def matching (p : Pattern) : Schema := .all [.type [.string], .pattern p]

def oneOfTexts (texts : List String) : Schema := .enum (texts.map .str)

def strings : Schema := .all [.type [.array], .items string]

/-- An object with `additionalProperties: false`. -/
def closedObject (required : List String) (properties : List (String × Schema)) : Schema :=
  .all [.type [.object], .required required, .properties properties, .closed (properties.map (·.1))]

/-- `if: {properties: {name: condition}, required: [name]}`. -/
def given (name : String) (condition : Schema) : Schema :=
  .all [.properties [(name, condition)], .required [name]]

def dynamicRuntimeBinding : Schema :=
  closedObject
    ["binding_id", "provider", "package", "version", "bundle_id", "capability_ids", "authority_sha256",
      "config_projection_sha256", "binding_sha256"]
    [("binding_id", nonemptyString),
      ("provider", .const (.str "openai-bundled")),
      ("package", nonemptyString),
      ("version", nonemptyString),
      ("bundle_id", nonemptyString),
      ("capability_ids", .all [.type [.array], .minItems 1, .uniqueItems, .items nonemptyString]),
      ("authority_sha256", matching sha256Pattern),
      ("config_projection_sha256", matching sha256OrEmptyPattern),
      ("binding_sha256", matching sha256Pattern)]

def issuance : Schema :=
  closedObject ["status", "registry_schema_version", "worker_execution_requested", "failure_code"]
    [("status", oneOfTexts ["registered", "failed"]),
      ("registry_schema_version", .const (.int 3)),
      ("worker_execution_requested", boolean),
      ("failure_code", .all [.type [.string, .null], .enum [
        .str "TASK_INPUT_REQUIRED", .str "TASK_INPUT_INSTRUCTION_MISMATCH",
        .str "TASK_INPUT_FIELDS_INCOMPLETE", .str "EXECUTION_DISPOSITION_REQUIRED",
        .str "EXECUTION_DISPOSITION_INVALID", .str "EXECUTION_DISPOSITION_MISMATCH",
        .str "EXECUTION_REQUEST_ID_REQUIRED", .str "WORKER_ELIGIBILITY_REQUIRED",
        .str "LOCAL_OPERATION_ELIGIBILITY_REQUIRED", .str "WORKER_TASK_GATE_TUPLE_INVALID",
        .str "LOCAL_TASK_GATE_TUPLE_INVALID", .str "ANTIGRAVITY_BINDINGS_INVALID",
        .str "PROJECT_CWD_CONFLICT", .str "SOURCE_SCOPE_UNAUTHORIZED", .str "AUTHORITY_UNAVAILABLE",
        .str "ROUTE_REGISTRY_UNAVAILABLE", .null]])]

def capability : Schema :=
  closedObject
    ["id", "kind", "name", "state", "provider", "version", "source_path", "sha256", "families", "description"]
    [("id", nonemptyString), ("kind", nonemptyString), ("name", nonemptyString), ("state", nonemptyString),
      ("status", nonemptyString), ("provider", string), ("version", string), ("source_path", string),
      ("sha256", string), ("families", strings), ("description", string)]

def capabilityOrNull : Schema := .one [capability, .type [.null]]

def twoCapabilities : Schema := .all [.type [.array], .maxItems 2, .items capability]

def executionDisposition : Schema := .all [
  closedObject ["mode", "eligible_worker_families"]
    [("mode", oneOfTexts ["codex_only", "worker_support"]),
      ("eligible_worker_families", .all [.type [.array], .maxItems 1, .uniqueItems,
        .items (oneOfTexts ["local_agent_stack", "terra", "antigravity"])])],
  .implies (given "mode" (.const (.str "codex_only")))
    (.properties [("eligible_worker_families", .maxItems 0)]),
  .implies (given "mode" (.const (.str "worker_support")))
    (.properties [("eligible_worker_families", .all [.minItems 1, .maxItems 1])])]

def worker : Schema :=
  closedObject
    ["rule_id", "execution_owner", "role", "model", "reasoning_effort", "deadline_seconds", "required",
      "reason_code"]
    [("rule_id", nonemptyString),
      ("execution_owner", oneOfTexts ["codex_child", "local_agent_stack"]),
      ("role", nonemptyString),
      ("model", nonemptyString),
      ("reasoning_effort", .all [.type [.string, .null],
        .enum [.str "low", .str "medium", .str "high", .str "xhigh", .str "max", .str "ultra", .null]]),
      ("deadline_seconds", .all [.type [.integer], .minimum 1, .maximum 3600]),
      ("required", boolean),
      ("reason_code", matching reasonCodePattern)]

def distinctTexts : Schema := .all [.type [.array], .minItems 1, .uniqueItems, .items nonemptyString]

def capabilityFallback : Schema := .all [
  closedObject
    ["requested_capability", "requested_capability_available", "required_dependencies",
      "unavailable_dependencies", "chosen_fallback", "selected_capability", "equivalence", "bounds",
      "reason_code"]
    [("requested_capability", nonemptyString),
      ("requested_capability_available", boolean),
      ("required_dependencies", distinctTexts),
      ("unavailable_dependencies", distinctTexts),
      ("chosen_fallback", nonemptyString),
      ("selected_capability", .type [.string, .null]),
      ("equivalence", oneOfTexts ["equivalent", "non_equivalent"]),
      ("bounds", closedObject ["max_passes", "deadline_seconds"]
        [("max_passes", .all [.type [.integer], .minimum 1, .maximum 4]),
          ("deadline_seconds", .all [.type [.integer], .minimum 1, .maximum 7200])]),
      ("reason_code", matching reasonCodePattern)],
  .implies (given "equivalence" (.const (.str "equivalent")))
    (.properties [("selected_capability", nonemptyString)])]

def skillRef : Schema :=
  closedObject ["id", "source_path", "sha256"]
    [("id", nonemptyString), ("source_path", nonemptyString), ("sha256", matching sha256Pattern)]

def localExecution : Schema := .all [
  closedObject
    ["admitted", "recipe_id", "local_stack_purpose", "worker_roles", "project_id", "task_type", "source_need",
      "requested_source_scopes", "complexity", "exact_evidence", "task_input_requirements",
      "mutation_authorized", "persistence_intent", "local_stack_role", "skill_refs", "memory"]
    [("admitted", boolean),
      ("recipe_id", .all [.type [.string, .null], .enum [
        .str "runtime_status", .str "memory_recall", .str "source_lookup", .str "retrieval_bundle",
        .str "literal_extraction", .str "fast_transform", .str "fast_then_critic",
        .str "coding_then_critic", .str "critic", .null]]),
      ("local_stack_purpose", .all [.type [.string, .null], .enum [
        .str "bounded_classification_or_transformation", .str "complex_multi_source_synthesis",
        .str "focused_coding_assistance", .str "explicit_challenge", .str "runtime_status",
        .str "prior_continuity", .str "project_evidence_lookup", .str "retrieval_bundle",
        .str "literal_structured_extraction", .null]]),
      ("worker_roles", .all [.type [.array], .maxItems 2, .items (oneOfTexts ["fast", "coding", "critic"])]),
      ("project_id", matching identifierPattern),
      ("task_type", oneOfTexts ["answer", "transform", "recall", "research", "synthesize", "implement",
        "review", "extract", "status"]),
      ("source_need", oneOfTexts ["none", "memory", "index", "both"]),
      ("requested_source_scopes", .all [.type [.array], .maxItems 3, .uniqueItems,
        .items (matching identifierPattern)]),
      ("complexity", oneOfTexts ["low", "medium", "high"]),
      ("exact_evidence", boolean),
      ("task_input_requirements", .all [.type [.array], .uniqueItems, .items (oneOfTexts [
        "instruction", "execution_disposition", "execution_request_id", "query",
        "extraction_prompt_description", "extraction_examples",
        "exactly_one_of:literal_text|extraction_source_path"])]),
      ("mutation_authorized", .const (.bool false)),
      ("persistence_intent", oneOfTexts ["none", "requested"]),
      ("local_stack_role", .const (.str "support")),
      ("skill_refs", closedObject ["primary", "supports"]
        [("primary", .one [skillRef, .type [.null]]),
          ("supports", .all [.type [.array], .maxItems 2, .items skillRef])]),
      ("memory", closedObject ["mode", "scope", "capture_when"]
        [("mode", oneOfTexts ["none", "recall", "recall_and_capture"]),
          ("scope", .all [.type [.string, .null], .pattern identifierPattern]),
          ("capture_when", .const (.str "durable_task_outcome"))])],
  .implies (given "admitted" (.const (.bool false)))
    (.properties [("recipe_id", .type [.null]), ("local_stack_purpose", .type [.null]),
      ("worker_roles", .maxItems 0), ("source_need", .const (.str "none")),
      ("requested_source_scopes", .maxItems 0), ("exact_evidence", .const (.bool false)),
      ("task_input_requirements", .maxItems 0),
      ("memory", .properties [("mode", .const (.str "none")), ("scope", .type [.null])])]),
  .implies (given "admitted" (.const (.bool true)))
    (.properties [("recipe_id", .type [.string]), ("local_stack_purpose", .type [.string])]),
  .implies (given "memory" (given "mode" (oneOfTexts ["recall", "recall_and_capture"])))
    (.properties [("memory", .properties [("scope", matching identifierPattern)])]),
  .implies (given "memory" (given "mode" (.const (.str "recall_and_capture"))))
    (.properties [("persistence_intent", .const (.str "requested"))]),
  .implies (given "memory" (given "mode" (oneOfTexts ["none", "recall"])))
    (.properties [("persistence_intent", .const (.str "none"))]),
  .implies (given "memory" (given "mode" (.const (.str "none"))))
    (.properties [("source_need", oneOfTexts ["none", "index"])]),
  .implies (given "memory" (given "mode" (oneOfTexts ["recall", "recall_and_capture"])))
    (.properties [("source_need", oneOfTexts ["memory", "both"])]),
  .implies (given "source_need" (oneOfTexts ["none", "memory"]))
    (.properties [("requested_source_scopes", .maxItems 0)]),
  .implies (given "source_need" (oneOfTexts ["index", "both"]))
    (.properties [("requested_source_scopes", .minItems 1)])]

/-! ### The decision -/

/-- The properties of a decision. -/
def properties : List (String × Schema) := [
  ("schema_version", .const (.str "3.0")),
  ("rule_id", string),
  ("scenario", nonemptyString),
  ("execution_owner", .const (.str "codex_parent")),
  ("model", .const (.str "gpt-5.6-sol")),
  ("reasoning_effort", oneOfTexts ["low", "medium", "high", "xhigh", "max", "ultra"]),
  ("support_workers", .all [.type [.array], .maxItems 2, .items worker]),
  ("local_execution", localExecution),
  ("execution_disposition", executionDisposition),
  ("execution_request_id", .all [.type [.string, .null], .pattern requestIdPattern]),
  ("skills", closedObject ["primary", "supports"]
    [("primary", capabilityOrNull), ("supports", twoCapabilities)]),
  ("capability_fallbacks", .all [.type [.array], .maxItems 1, .items capabilityFallback]),
  ("dynamic_runtime_bindings", .all [.type [.array], .items dynamicRuntimeBinding]),
  ("reason_codes", .all [.type [.array], .minItems 1, .uniqueItems, .items (matching reasonCodePattern)]),
  ("deadline_seconds", .all [.type [.integer], .minimum 1, .maximum 7200]),
  ("fallback", closedObject ["on_unavailable", "on_timeout", "on_error", "automatic_retry"]
    [("on_unavailable", .const (.str "return_to_codex")), ("on_timeout", .const (.str "return_to_codex")),
      ("on_error", .const (.str "return_to_codex")), ("automatic_retry", .const (.bool false))]),
  ("requires", strings),
  ("authority_limit", nonemptyString),
  ("evidence_ids", strings),
  ("manifest_snapshot", string),
  ("decision_snapshot", string),
  ("manifest_authority_sha256", matching sha256OrEmptyPattern),
  ("policy_authority_sha256", matching sha256OrEmptyPattern),
  ("task_text_sha256", matching sha256Pattern),
  ("task_input_sha256", matching sha256Pattern),
  ("task_input_mode", oneOfTexts ["complete", "conservative_instruction_only"]),
  ("issuance", issuance),
  ("task_fingerprint", matching sha256Pattern),
  ("decision_id", matching sha256Pattern),
  ("decision_digest", matching sha256Pattern),
  ("primary", capabilityOrNull),
  ("supports", twoCapabilities)]

/-- What every decision has: all properties but `dynamic_runtime_bindings`. -/
def requiredNames : List String :=
  (properties.map (·.1)).filter (· != "dynamic_runtime_bindings")

/-- `if` a worker of the kind given is named, `then` the disposition is eligible for its family. -/
def workerFamily (kind : List (String × Schema)) (family : String) : Schema :=
  .implies (given "support_workers" (.contains (.all [.properties kind, .required (kind.map (·.1))])))
    (.properties [("execution_disposition", .properties [
      ("mode", .const (.str "worker_support")),
      ("eligible_worker_families", .contains (.const (.str family)))])])

def withoutExecution : List (String × Schema) :=
  [("support_workers", .maxItems 0),
    ("local_execution", .properties [("admitted", .const (.bool false))])]

/-- A decision that names a worker or admits a local execution. -/
def runnable : Schema := .any [
  given "support_workers" (.minItems 1),
  given "local_execution" (given "admitted" (.const (.bool true)))]

/-- What it says of its issuance, and the rest of it. -/
def requestedIssuance : List (String × Schema) :=
  [("status", .const (.str "registered")), ("worker_execution_requested", .const (.bool true)),
    ("failure_code", .type [.null])]

def requested : List (String × Schema) :=
  [("task_input_mode", .const (.str "complete")), ("execution_request_id", .type [.string]),
    ("issuance", .properties requestedIssuance)]

def conditionals : List Schema := [
  .implies (given "execution_disposition" (given "mode" (.const (.str "codex_only"))))
    (.properties [("support_workers", .maxItems 0),
      ("local_execution", .properties [("worker_roles", .maxItems 0),
        ("recipe_id", .enum [.str "runtime_status", .str "memory_recall", .str "source_lookup",
          .str "retrieval_bundle", .str "literal_extraction", .null])])]),
  workerFamily [("execution_owner", .const (.str "codex_child")),
    ("role", .const (.str "independent_challenger"))] "antigravity",
  workerFamily [("execution_owner", .const (.str "codex_child")), ("role", .const (.str "read_heavy"))] "terra",
  workerFamily [("execution_owner", .const (.str "local_agent_stack"))] "local_agent_stack",
  .implies (given "issuance" (given "status" (.const (.str "failed"))))
    (.properties (withoutExecution ++ [("issuance", .properties [("failure_code",
      .enum [.str "AUTHORITY_UNAVAILABLE", .str "ROUTE_REGISTRY_UNAVAILABLE"])])])),
  .implies (given "issuance" (given "status" (.const (.str "registered"))))
    (.properties [("manifest_authority_sha256", .pattern sha256Pattern),
      ("policy_authority_sha256", .pattern sha256Pattern)]),
  .implies (given "issuance" (given "failure_code" (.negation (.type [.null]))))
    (.properties withoutExecution),
  .implies runnable (.properties requested),
  .implies (given "issuance" (given "worker_execution_requested" (.const (.bool false))))
    (.properties [("execution_request_id", .type [.null])]),
  .implies (.all [
      .properties [("task_input_mode", .const (.str "conservative_instruction_only")),
        ("issuance", given "worker_execution_requested" (.const (.bool true)))],
      .required ["task_input_mode", "issuance"]])
    (.properties withoutExecution)]

/-- `route-decision.schema.json`. -/
def schema : Schema := .all [closedObject requiredNames properties, .all conditionals]

end DecisionSchema

/-! ### What an accepted decision says -/

/-- The decision names a worker, or admits a local execution. -/
def Executable (decision : Mapping) : Prop :=
  (∃ worker workers, decision.get? "support_workers" = some (.tuple (worker :: workers))) ∨
    ∃ directive : Mapping, decision.get? "local_execution" = some (.mapping directive) ∧
      directive.get? "admitted" = some (.bool true)

/-- What the schema asks of a decision that names a worker or admits a local execution. -/
structure ExecutableShape (decision : Mapping) : Prop where
  complete : decision.get? "task_input_mode" = some (.str "complete")
  requestId : ∃ id, decision.get? "execution_request_id" = some (.str id)
  issuance : ∃ issuance : Mapping, decision.get? "issuance" = some (.mapping issuance) ∧
    issuance.get? "status" = some (.str "registered") ∧
    issuance.get? "worker_execution_requested" = some (.bool true) ∧
    issuance.get? "failure_code" = some .null

namespace DecisionSchema

variable {decision m : Mapping} {v : Value} {name : String} {condition : Schema}

theorem given_of (hget : m.get? name = some v) (h : condition.accepts v = true) :
    (given name condition).accepts (.mapping m) = true := by
  refine Schema.accepts_all_iff.mpr (List.forall_mem_cons.mpr ⟨?_, List.forall_mem_singleton.mpr ?_⟩)
  · refine Schema.accepts_properties_iff.mpr (List.forall_mem_singleton.mpr fun w hw => ?_)
    obtain rfl := Option.some.inj (hget.symm.trans hw)
    exact h
  · refine Schema.accepts_required_iff.mpr (List.forall_mem_singleton.mpr ?_)
    rw [hget]
    rfl

theorem runnable_of (h : Executable decision) : runnable.accepts (.mapping decision) = true := by
  rw [runnable, Schema.accepts_any_iff]
  rcases h with ⟨worker, workers, hworkers⟩ | ⟨directive, hdirective, hadmitted⟩
  · refine ⟨_, List.mem_cons_self, given_of hworkers ?_⟩
    show decide (1 ≤ workers.length + 1) = true
    exact decide_eq_true (Nat.succ_le_succ (Nat.zero_le _))
  · refine ⟨_, List.mem_cons_of_mem _ List.mem_cons_self, given_of hdirective (given_of hadmitted rfl)⟩

/-- A text constant is accepted only as itself. -/
theorem const_str {s : String} (h : (Schema.const (.str s)).accepts v = true) : v = .str s := by
  rw [Schema.accepts] at h
  cases v with
  | bool b => cases h
  | _ => exact (Value.eq_str _ _).mp h

theorem const_true (h : (Schema.const (.bool true)).accepts v = true) : v = .bool true := by
  rw [Schema.accepts] at h
  cases v with
  | bool b =>
      cases b with
      | true => rfl
      | false => cases h
  | _ => cases h

theorem type_string (h : (Schema.type [.string]).accepts v = true) : ∃ s, v = .str s := by
  cases v with
  | str s => exact ⟨s, rfl⟩
  | _ => cases h

theorem type_null (h : (Schema.type [.null]).accepts v = true) : v = .null := by
  cases v with
  | null => rfl
  | _ => cases h

theorem type_object (h : (Schema.type [.object]).accepts v = true) : ∃ m, v = .mapping m := by
  cases v with
  | mapping m => exact ⟨m, rfl⟩
  | _ => cases h

theorem closedObject_parts {required : List String} {properties : List (String × Schema)}
    (h : (closedObject required properties).accepts v = true) :
    ∃ m : Mapping, v = .mapping m ∧ (∀ name ∈ required, (m.get? name).isSome) ∧
      (Schema.properties properties).accepts (.mapping m) = true := by
  have hparts := Schema.accepts_all_iff.mp h
  obtain ⟨m, rfl⟩ := type_object (hparts (.type [.object]) (by simp))
  exact ⟨m, rfl, Schema.accepts_required_iff.mp (hparts (.required required) (by simp)),
    hparts (.properties properties) (by simp)⟩

theorem accepts_parts (h : schema.accepts (.mapping decision) = true) :
    (∀ name ∈ requiredNames, (decision.get? name).isSome) ∧
      (Schema.properties properties).accepts (.mapping decision) = true ∧
      ∀ s ∈ conditionals, s.accepts (.mapping decision) = true := by
  have hparts := Schema.accepts_all_iff.mp h
  obtain ⟨m, hm, hrequired, hproperties⟩ :=
    closedObject_parts (hparts (closedObject requiredNames properties) List.mem_cons_self)
  obtain rfl := Value.mapping.inj hm
  exact ⟨hrequired, hproperties, Schema.accepts_all_iff.mp
    (hparts (.all conditionals) (List.mem_cons_of_mem _ List.mem_cons_self))⟩

/-- What an accepted decision holds under a required name. -/
theorem accepts_required (h : schema.accepts (.mapping decision) = true) {name : String}
    (hname : name ∈ requiredNames) :
    ∃ v, decision.get? name = some v := Option.isSome_iff_exists.mp ((accepts_parts h).1 name hname)

/-- **An executable decision.**  The schema accepts it only as registered, requested and complete. -/
theorem executableShape (h : schema.accepts (.mapping decision) = true) (hexecutable : Executable decision) :
    ExecutableShape decision := by
  obtain ⟨-, hproperties, hconditionals⟩ := accepts_parts h
  have hconditional : (Schema.implies runnable (.properties requested)).accepts (.mapping decision) = true := by
    refine hconditionals _ ?_
    rw [conditionals]
    iterate 7 refine List.mem_cons_of_mem _ ?_
    exact List.mem_cons_self
  have hthen := Schema.accepts_properties_iff.mp
    (Schema.accepts_implies_iff.mp hconditional (runnable_of hexecutable))
  simp only [requested, List.forall_mem_cons] at hthen
  obtain ⟨hmode, hrequestId, hissuance, -⟩ := hthen
  obtain ⟨mode, hgetMode⟩ : ∃ v, decision.get? "task_input_mode" = some v := accepts_required h (by decide)
  obtain ⟨id, hgetId⟩ : ∃ v, decision.get? "execution_request_id" = some v := accepts_required h (by decide)
  obtain ⟨v, hgetIssuance⟩ : ∃ v, decision.get? "issuance" = some v := accepts_required h (by decide)
  have hdocument : issuance.accepts v = true :=
    Schema.accepts_properties_iff.mp hproperties ("issuance", issuance) (by simp [properties]) v hgetIssuance
  obtain ⟨document, rfl, hfields, -⟩ := closedObject_parts hdocument
  simp only [List.forall_mem_cons] at hfields
  obtain ⟨hstatus, -, hrequested, hcode, -⟩ := hfields
  obtain ⟨status, hgetStatus⟩ := Option.isSome_iff_exists.mp hstatus
  obtain ⟨requested, hgetRequested⟩ := Option.isSome_iff_exists.mp hrequested
  obtain ⟨code, hgetCode⟩ := Option.isSome_iff_exists.mp hcode
  have hissued := Schema.accepts_properties_iff.mp (hissuance _ hgetIssuance)
  simp only [requestedIssuance, List.forall_mem_cons] at hissued
  obtain ⟨hstatus, hrequested, hcode, -⟩ := hissued
  refine ⟨?_, ?_, document, hgetIssuance, ?_, ?_, ?_⟩
  · rw [hgetMode, const_str (hmode _ hgetMode)]
  · obtain ⟨text, rfl⟩ := type_string (hrequestId _ hgetId)
    exact ⟨text, hgetId⟩
  · rw [hgetStatus, const_str (hstatus _ hgetStatus)]
  · rw [hgetRequested, const_true (hrequested _ hgetRequested)]
  · rw [hgetCode, type_null (hcode _ hgetCode)]

end DecisionSchema

end CodingOS.CapabilityIndex
