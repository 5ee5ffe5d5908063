import CodingOS.CapabilityIndex.DecisionSchema
import CodingOS.Python.Json
import CodingOS.Systems.Result
import CodingOS.Systems.Table

/-!
# The registry of issued routes

`_issue_route_decision` of `capability_index.py` and its table.  A decision is registered under its own
digest, with the time it was issued at and the time it expires at; a decision that is issued again moves
these two.  Expired rows are kept for audit, as long as the audit lasts and as far as they fit.

One call is one transaction, made again while SQLite finds the database locked.
-/

namespace CodingOS.CapabilityIndex

open CodingOS.Python Systems Systems.Result

/-! ### Errors -/

/-- `CapabilityDataError`, `RouteRegistryError` (and the errors of SQLite it stands for) and `KeyError`. -/
inductive RouteErrorKind
  | data | registry | key
deriving DecidableEq

structure RouteError where
  kind : RouteErrorKind
  message : String
deriving DecidableEq

def ensure (condition : Bool) (e : RouteError) : Except RouteError Unit :=
  if condition then .ok () else .error e

theorem ensure_eq_ok {condition : Bool} {e : RouteError} {u : Unit} :
    ensure condition e = .ok u ↔ condition = true := by
  cases condition <;> simp [ensure]

/-! ### Decisions -/

def defaultRouteTtlSeconds : ℤ := 86400

def expiredRouteAuditRetentionSeconds : ℤ := 86400

def maxRegisteredRoutes : ℤ := 10000

/-- `re.fullmatch(r"[a-f0-9]{64}", text)`, which is also the `CHECK` of a digest column. -/
def isSha256 (text : String) : Bool := text.length == 64 && isLowerHex text

section Decisions

variable [Runtime]

/-- `str(value or "")`. -/
def orEmpty (v : Value) : String := if v.truthy then v.text else ""

/-- `_decision_digest`. -/
def decisionDigest (decision : Mapping) : String :=
  canonicalJsonDigest (.mapping ((decision.erase "decision_digest").erase "decision_id"))

/-- `canonical_route_json`. -/
def canonicalRouteJson (decision : Mapping) : String := canonicalJson (.mapping decision)

/-- `validate_route_decision`. -/
def validateRouteDecision (decision : Mapping) : Except RouteError Unit := do
  ensure (DecisionSchema.schema.accepts (.mapping decision)) ⟨.data, "route decision schema validation failed"⟩
  ensure (orEmpty (decision.read "decision_digest") == decisionDigest decision
      && orEmpty (decision.read "decision_id") == decisionDigest decision)
    ⟨.data, "route decision digest or decision_id mismatch"⟩

/-- The checks of `_issue_route_decision` before it opens the registry. -/
def checkIssuable (decision : Mapping) : Except RouteError Unit := do
  validateRouteDecision decision
  ensure (match decision.read "issuance" with
      | .mapping issuance => (Mapping.read issuance "status").eq (.str "registered")
      | _ => false)
    ⟨.data, "only a route marked registered can be issued"⟩

variable {decision : Mapping} {u : Unit}

theorem validateRouteDecision_eq_ok : validateRouteDecision decision = .ok u ↔
    DecisionSchema.schema.accepts (.mapping decision) = true ∧
      orEmpty (decision.read "decision_digest") = decisionDigest decision ∧
      orEmpty (decision.read "decision_id") = decisionDigest decision := by
  simp only [validateRouteDecision, bind_eq_ok, ensure_eq_ok, exists_const, Bool.and_eq_true, beq_iff_eq]

theorem checkIssuable_eq_ok : checkIssuable decision = .ok u ↔
    validateRouteDecision decision = .ok () ∧ ∃ issuance : Mapping,
      decision.read "issuance" = .mapping issuance ∧ issuance.read "status" = .str "registered" := by
  simp only [checkIssuable, bind_eq_ok, ensure_eq_ok]
  constructor
  · rintro ⟨_, hvalid, hstatus⟩
    split at hstatus
    · rename_i issuance hissuance
      exact ⟨hvalid, issuance, hissuance, (Value.eq_str _ _).mp hstatus⟩
    · cases hstatus
  · rintro ⟨hvalid, issuance, hissuance, hstatus⟩
    refine ⟨(), hvalid, ?_⟩
    rw [hissuance]
    exact (Value.eq_str _ _).mpr hstatus

end Decisions

/-! ### Rows -/

/-- A row of `route_decisions`. -/
structure RouteRow where
  decisionId : String
  decisionDigest : String
  taskTextSha256 : String
  taskInputSha256 : String
  routeJson : String
  routeJsonSha256 : String
  schemaVersion : String
  manifestSnapshot : String
  decisionSnapshot : String
  manifestAuthoritySha256 : String
  policyAuthoritySha256 : String
  issuedAt : ℤ
  expiresAt : ℤ
deriving DecidableEq

/-- The `CHECK` constraints. -/
def RouteRow.checks (r : RouteRow) : Bool :=
  [r.decisionId, r.decisionDigest, r.taskTextSha256, r.taskInputSha256, r.routeJsonSha256,
      r.manifestAuthoritySha256, r.policyAuthoritySha256].all isSha256
    && r.issuedAt < r.expiresAt

/-- The registry, once its table has the exact shape of version 3. -/
abbrev Registry := Table RouteRow.decisionId

/-- `expires_at >= now`. -/
def RouteRow.isActive (now : ℤ) (r : RouteRow) : Bool := now ≤ r.expiresAt

/-- `expires_at < now - EXPIRED_ROUTE_AUDIT_RETENTION_SECONDS`. -/
def beforeAudit (now : ℤ) (r : RouteRow) : Bool :=
  r.expiresAt < now - expiredRouteAuditRetentionSeconds

/-- The number of rows that have not expired. -/
def active (rows : Registry) (now : ℤ) : ℕ := rows.countWhere (RouteRow.isActive now)

/-- `decision[name]`, bound to a text column. -/
def column (decision : Mapping) (name : String) : Except RouteError String :=
  match decision.get? name with
  | some (.str text) => .ok text
  | some _ => .error ⟨.registry, "Error binding parameter"⟩
  | none => .error ⟨.key, name⟩

section Issue

variable [Runtime]

/-- The row of a decision, by its issue time. -/
def routeColumns (decision : Mapping) : Except RouteError (ℤ → RouteRow) := do
  let decisionId ← column decision "decision_id"
  let decisionDigest ← column decision "decision_digest"
  let taskTextSha256 ← column decision "task_text_sha256"
  let taskInputSha256 ← column decision "task_input_sha256"
  let schemaVersion ← column decision "schema_version"
  let manifestSnapshot ← column decision "manifest_snapshot"
  let decisionSnapshot ← column decision "decision_snapshot"
  let manifestAuthoritySha256 ← column decision "manifest_authority_sha256"
  let policyAuthoritySha256 ← column decision "policy_authority_sha256"
  return fun issuedAt => {
    decisionId, decisionDigest, taskTextSha256, taskInputSha256, schemaVersion, manifestSnapshot,
    decisionSnapshot, manifestAuthoritySha256, policyAuthoritySha256, issuedAt
    routeJson := canonicalRouteJson decision
    routeJsonSha256 := Runtime.sha256 (canonicalRouteJson decision)
    expiresAt := issuedAt + defaultRouteTtlSeconds }

/-- The row of a decision that is issued now. -/
def RouteRow.of (decision : Mapping) (now : ℤ) : Except RouteError RouteRow := do
  let row ← routeColumns decision
  return row now

/-- `ORDER BY expires_at DESC, issued_at DESC, decision_id DESC`. -/
def newestFirst (a b : RouteRow) : Bool :=
  b.expiresAt < a.expiresAt || a.expiresAt == b.expiresAt &&
    (b.issuedAt < a.issuedAt || a.issuedAt == b.issuedAt && b.decisionId ≤ a.decisionId)

/-- The expired rows that do not fit, by their keys. -/
def overflow (rows : Registry) (now : ℤ) (retention : ℕ) : List String :=
  (((rows.rows.filter fun r => !r.isActive now).mergeSort newestFirst).drop retention).map
    RouteRow.decisionId

/-- The statements between `BEGIN IMMEDIATE` and `COMMIT`.  A registry without the exact table gets an
empty one. -/
def registerRoute (registry : Option Registry) (decision : Mapping) (now : ℤ) (retention : ℕ) :
    Except RouteError (RouteRow × Registry) := do
  let kept := (registry.getD .empty).delete (beforeAudit now)
  let decisionId ← column decision "decision_id"
  ensure ((kept.get? decisionId).isSome || active kept now < retention)
    ⟨.registry, "route registry active issuance capacity reached; no unexpired route was removed"⟩
  let row ← RouteRow.of decision now
  ensure row.checks ⟨.registry, "CHECK constraint failed"⟩
  let rows := kept.upsert row
  return (row, rows.delete fun r => (overflow rows now retention).contains r.decisionId)

/-! ### Calls -/

/-- What keeps an attempt from its end: SQLite finds the database locked, or anything else fails. -/
inductive Fault
  | locked | failed (message : String)

/-- A call: the decision, its issue time, and what happens to the attempts before the last one. -/
structure IssueCall where
  decision : Mapping
  now : ℤ
  faults : List Fault := []

/-- What a call returns. -/
structure Receipt where
  row : RouteRow
  executionDisposition : Value
  executionRequestId : Value

def receiptError (e : RouteError) : RouteError :=
  if e.kind = .key then e else ⟨.registry, "cannot issue route registry receipt: " ++ e.message⟩

/-- An attempt that nothing keeps from its end: it commits, or its transaction is rolled back. -/
def attempt (registry : Option Registry) (c : IssueCall) (retention : ℕ) :
    Except RouteError Receipt × Option Registry :=
  match registerRoute registry c.decision c.now retention with
  | .ok (row, rows) =>
      (.ok ⟨row, c.decision.read "execution_disposition", c.decision.read "execution_request_id"⟩,
        some rows)
  | .error e => (.error (receiptError e), registry)

/-- The loop over the attempts, with the number of retries that are left. -/
def attempts (registry : Option Registry) (c : IssueCall) (retention : ℕ) :
    ℕ → List Fault → Except RouteError Receipt × Option Registry
  | _, [] => attempt registry c retention
  | retries + 1, .locked :: faults => attempts registry c retention retries faults
  | 0, .locked :: _ =>
      (.error ⟨.registry, "cannot issue route registry receipt: database is locked"⟩, registry)
  | _, .failed message :: _ =>
      (.error ⟨.registry, "cannot issue route registry receipt: " ++ message⟩, registry)

/-- `max(1, min(int(max_records), MAX_REGISTERED_ROUTES))`. -/
def retention (maxRecords : ℤ) : ℕ := (max 1 (min maxRecords maxRegisteredRoutes)).toNat

/-- `_issue_route_decision`: what it returns or raises, and the registry it leaves. -/
def issueRouteDecision (registry : Option Registry) (c : IssueCall) (maxRecords : ℤ) :
    Except RouteError Receipt × Option Registry :=
  match checkIssuable c.decision with
  | .error e => (.error e, registry)
  | .ok _ => attempts registry c (retention maxRecords) 5 c.faults

end Issue

end CodingOS.CapabilityIndex
