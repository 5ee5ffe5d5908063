import CodingOS.Effects.ExactFile
import CodingOS.Store.Effects
import CodingOS.Systems.Pool

/-!
# The external-effect driver

`ExternalEffectDriver` of `effects.py`: `run` and `reconcile` take one row of the outbox from `PREPARED` to what
its effect came to.  A call is a program over the transactions of the store, the acceptance sources and the
backend; the backend may answer and raise anything.
-/

namespace CodingOS.Effects.ExternalEffectDriver

open CodingOS.Python CodingOS.Campaign CodingOS.Store Systems

variable [Runtime]

/-! ### Exceptions -/

/-- The exceptions `run` tells apart. -/
inductive DriverException
  | store (exc : CampaignError)
  | effect (message : String)
  | conflict (message : String)
  | ambiguous (message : String)
  | sourceDrift (message : String)
  | other (name message : String)

def errorName : ErrorKind → String
  | .modelValidation => "ModelValidationError"
  | .transition => "TransitionError"
  | .revisionConflict => "RevisionConflict"
  | .authority => "AuthorityError"
  | .cancellation => "CancellationError"
  | .fencing => "FencingError"
  | .budget => "BudgetError"
  | .store => "StoreError"
  | .requestConflict => "RequestConflict"
  | .scopeOverlap => "ScopeOverlapError"
  | .admission => "AdmissionError"
  | .integrity => "IntegrityError"
  | .python => "Exception"

/-- `f"{type(exc).__name__}: {exc}"`. -/
def DriverException.describe : DriverException → String
  | .store exc => errorName exc.kind ++ ": " ++ exc.message
  | .effect message => "EffectError: " ++ message
  | .conflict message => "EffectConflict: " ++ message
  | .ambiguous message => "AmbiguousMutation: " ++ message
  | .sourceDrift message => "SourceDriftError: " ++ message
  | .other name message => name ++ ": " ++ message

/-! ### Operations -/

inductive DriverOp
  | getEffect (operationId : String)
  | getSnapshot (campaignId : String)
  | updateEffect (operationId : String) (expected target : EffectState) (result : Option Value)
  | verifySources (spec : CampaignSpec) (nodeId : Option String)
  | query (record : EffectRow)
  | execute (record : EffectRow)

/-- What the operations give.  `update_effect` gives the row it has read in its transaction when the state
stays. -/
abbrev DriverResult : DriverOp → Type
  | .getEffect _ => EffectRow
  | .getSnapshot _ => CampaignSnapshot
  | .updateEffect _ _ _ _ => Option EffectRow
  | .verifySources _ _ => Unit
  | .query _ | .execute _ => Mapping

abbrev DriverAnswer (op : DriverOp) : Type := Except DriverException (DriverResult op)

/-- What the store raises. -/
def storeAnswer {α : Type} : Result α → Except DriverException α
  | .ok a => .ok a
  | .error exc => .error (.store exc)

/-- What an operation does to the store. -/
def Performs : (op : DriverOp) → Db → DriverAnswer op → Db → Prop
  | .getEffect operationId, db, answer, db' => answer = storeAnswer (db.getEffect operationId) ∧ db' = db
  | .getSnapshot campaignId, db, answer, db' => answer = storeAnswer (db.loadSnapshot campaignId) ∧ db' = db
  | .updateEffect operationId expected target result, db, answer, db' =>
      (∃ exc, db.updateEffect operationId target result (some expected) = .error exc ∧
        answer = .error (.store exc) ∧ db' = db) ∨
      db.updateEffect operationId target result (some expected) = .ok db' ∧
        answer = .ok (if expected = target then db'.outbox.get? operationId else none)
  | .verifySources _ _, db, _, db' | .query _, db, _, db' | .execute _, db, _, db' => db' = db

/-- The store with its clients outside, and the exceptions of the connection. -/
def driverMachine : Machine DriverAnswer Db where
  step op db answer db' := Performs op db answer db' ∨
    (∃ name message, answer = .error (.other name message)) ∧ db' = db
  torn op db db' := db' = db ∨ ∃ answer, Performs op db answer db'

/-! ### The program -/

abbrev Task (α : Type) := Program DriverAnswer DriverException α

def raise {α : Type} (exc : DriverException) : Task α := .raise exc

def ask (op : DriverOp) : Task (DriverResult op) := .call op .ofExcept

def ensure (condition : Bool) (exc : DriverException) : Task Unit := if condition then pure () else raise exc

/-- `try: p except Exception as exc`. -/
def attempt {α : Type} (p : Task α) : Task (Except DriverException α) :=
  (p >>= fun a => pure (.ok a)).handle fun exc => pure (.error exc)

/-- `{"error": text}`. -/
def errorResult (message : String) : Option Value := some (.mapping [("error", .str message)])

/-- `_stable_id(operation_id, "operation id")`. -/
@[irreducible] def stableId (operationId : String) : Task String := do
  ensure (isStableId (strip operationId)) (.effect "operation id is not one stable identifier")
  return strip operationId

/-- `store.update_effect`. -/
@[irreducible] def updateEffect (operationId : String) (expected target : EffectState) (result : Option Value) :
    Task EffectRow := do
  match ← ask (.updateEffect operationId expected target result) with
  | some row => return row
  | none => ask (.getEffect operationId)

/-- `_assert_record`. -/
@[irreducible] def assertRecord (record : EffectRow) : Task Unit :=
  ensure (canonicalJsonDigest (.mapping record.payload) == record.payloadDigest)
    (.conflict "external effect payload differs from its durable digest")

/-- `expected` of `_assert_campaign_contract`. -/
def expectedFields (spec : CampaignSpec) (node : NodeSnapshot) : List (String × Option String) :=
  [("expected_campaign_id", some spec.campaignId),
    ("expected_specification_digest", some spec.specificationDigest),
    ("expected_base_sha", some spec.baseSha),
    ("candidate_head", node.candidateHead),
    ("head", node.candidateHead)]

/-- `not value or payload.get(field) != value`, negated. -/
def fieldAgrees (payload : Mapping) (field : String) : Option String → Bool
  | none => false
  | some value => value != "" && (payload.read field).eq (.str value)

/-- The first field that differs is refused. -/
def refuseField : Option (String × Option String) → Task Unit
  | some e => raise (.conflict ("external effect " ++ e.1 ++ " differs from the current campaign"))
  | none => pure ()

/-- The candidate of a pull request. -/
@[irreducible] def assertCandidate (snapshot : CampaignSnapshot) (record : EffectRow) : Task Unit :=
  match record.nodeId with
  | none => raise (.conflict "campaign pull request publication requires a candidate node")
  | some nodeId => do
      let node ← .ofExcept (storeAnswer (snapshot.node nodeId))
      refuseField ((expectedFields snapshot.spec node).find? fun e => !fieldAgrees record.payload e.1 e.2)

/-- `_assert_campaign_contract`. -/
@[irreducible] def assertCampaignContract (record : EffectRow) (checkSources : Bool) : Task Unit := do
  let snapshot ← ask (.getSnapshot record.campaignId)
  ensure (snapshot.spec.campaignId == record.campaignId)
    (.conflict "external effect campaign differs from its stored specification")
  (if record.kind = .createPullRequest ∨ record.kind = .merge then assertCandidate snapshot record else pure ())
  if checkSources then ask (.verifySources snapshot.spec record.nodeId) else pure ()

/-- `query.get("confirmed")`. -/
def isConfirmed (query : Mapping) : Bool := (query.read "confirmed").truthy

/-- `_confirm_from_query`. -/
@[irreducible] def confirmFromQuery (record : EffectRow) (expected : EffectState) : Task (Option EffectRow) := do
  let query ← ask (.query record)
  if isConfirmed query then do
    let expected ← (if expected = .prepared then do
        let executing ← updateEffect record.operationId .prepared .executing
          (some (.mapping [("query_before_mutation", .mapping query)]))
        pure executing.state
      else pure expected)
    return some (← updateEffect record.operationId expected .confirmed (some (.mapping query)))
  else return none

/-- `{"confirmed": False, "queried": True, "error": text}`. -/
def unprovenResult (message : String) : Option Value :=
  some (.mapping [("confirmed", .bool false), ("queried", .bool true), ("error", .str message)])

/-- `reconcile`. -/
@[irreducible] def reconcile (operationId : String) : Task EffectRow := do
  let operation ← stableId operationId
  let record ← ask (.getEffect operation)
  assertRecord record
  if record.state = .confirmed then return record
  else do
    ensure (record.state == .ambiguous) (.conflict "only an AMBIGUOUS effect can be reconciled")
    match ← attempt (confirmFromQuery record .ambiguous) with
    | .error exc =>
        updateEffect record.operationId .ambiguous .ambiguous
          (unprovenResult ("reconciliation query failed: " ++ exc.describe))
    | .ok (some confirmed) => return confirmed
    | .ok none =>
        updateEffect record.operationId .ambiguous .ambiguous
          (unprovenResult "external query did not prove completion")

/-- A cancelled `run`. -/
@[irreducible] def runCancelled (operation : String) (state : EffectState) : Task EffectRow :=
  if state = .executing then
    updateEffect operation .executing .ambiguous
      (errorResult "campaign cancelled while external effect may have been executing")
  else if state = .ambiguous then reconcile operation
  else updateEffect operation .prepared .cancelled (errorResult "campaign cancellation prevented execution")

/-- The part of `run` behind the mutation. -/
@[irreducible] def confirm (operation : String) (executing : EffectRow) (result : Mapping) : Task EffectRow := do
  match ← attempt (ask (.query executing)) with
  | .error exc =>
      updateEffect operation .executing .ambiguous (some (.mapping [
        ("execution", .mapping result),
        ("error", .str ("confirmation query failed: " ++ exc.describe))]))
  | .ok query =>
      if isConfirmed query then
        updateEffect operation .executing .confirmed
          (some (.mapping [("execution", .mapping result), ("confirmation", .mapping query)]))
      else
        updateEffect operation .executing .ambiguous (some (.mapping [
          ("execution", .mapping result),
          ("error", .str "mutation returned but external confirmation is absent")]))

/-- The part of `run` behind the preflight query. -/
@[irreducible] def mutate (operation : String) : Task EffectRow := do
  let executing ← updateEffect operation .prepared .executing none
  match ← attempt (do assertCampaignContract executing true; ask (.execute executing)) with
  | .error (.sourceDrift message) => do
      let _ ← updateEffect operation .executing .failed (errorResult ("SourceDriftError: " ++ message))
      raise (.sourceDrift message)
  | .error (.ambiguous message) => do
      let ambiguous ← updateEffect operation .executing .ambiguous (errorResult message)
      reconcile ambiguous.operationId
  | .error exc => updateEffect operation .executing .failed (errorResult exc.describe)
  | .ok result => confirm operation executing result

/-- `run` of a prepared row. -/
@[irreducible] def runPrepared (operation : String) (record : EffectRow) : Task EffectRow := do
  match ← attempt (do assertCampaignContract record false; confirmFromQuery record .prepared) with
  | .error exc => do
      let executing ← updateEffect operation .prepared .executing
        (some (.mapping [("query_before_mutation_error", .str exc.describe)]))
      updateEffect operation executing.state .failed (errorResult ("preflight query failed: " ++ exc.describe))
  | .ok (some already) => return already
  | .ok none => mutate operation

/-- `ExternalEffectDriver.run`. -/
@[irreducible] def run (operationId : String) (cancelled : Bool) : Task EffectRow := do
  let operation ← stableId operationId
  let record ← ask (.getEffect operation)
  assertRecord record
  match record.state with
  | .confirmed | .failed | .cancelled => return record
  | state =>
      if cancelled then runCancelled operation state
      else match state with
        | .ambiguous => reconcile operation
        | .executing => do
            let ambiguous ← updateEffect operation .executing .ambiguous
              (errorResult "execution outcome was not durably confirmed before restart")
            reconcile ambiguous.operationId
        | _ => runPrepared operation record

/-- The calls of the driver. -/
def Calls (p : Task EffectRow) : Prop :=
  (∃ operationId cancelled, p = run operationId cancelled) ∨ ∃ operationId, p = reconcile operationId

end CodingOS.Effects.ExternalEffectDriver
