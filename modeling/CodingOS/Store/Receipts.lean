import CodingOS.Crypto.Ed25519
import CodingOS.Store.Transition

/-!
# Human authorization, budgets, evidence and receipts

The remaining transactions of `store.py`: the one-use human receipt that carries
`AUTHORIZE_REPAIR` and `AUTHORIZE_PUBLICATION`, the reservation of one budgeted attempt, and the
records that accompany a campaign without moving it (runtime operations, evidence, attested terminal
receipts, reviews, native usage).
-/

namespace CodingOS.Store

open CodingOS.Python CodingOS.Campaign Systems

variable [Runtime]

/-! ### Human authorization -/

/-- The kinds of receipt `_validate_human_authorization_receipt` expects. -/
def authorizationKind? : EventType → Option String
  | .authorizeRepair => some "repair_authorized"
  | .authorizePublication => some "publication_authorized"
  | _ => none

/-- A canonical base64 text and its bytes. -/
def canonicalBase64? (encoded : String) : Option (List UInt8) :=
  (base64Decode encoded.toList).filter fun data => String.ofList (base64Encode data) == encoded

/-- `text.encode("utf-8")`. -/
def utf8 (text : String) : List UInt8 := text.toUTF8.toList

/-- `_verify_human_authorization_signature`. -/
def verifyHumanAuthorizationSignature (snapshot : CampaignSnapshot) (receipt : Mapping) :
    Result Unit := do
  let verifier ← orRaise
    (snapshot.spec.publicationAuthority.read "human_authorization").asMapping? .authority
    "approved specification has no human authorization verifier"
  check .authority
    ((verifier.read "algorithm").eq (.str "ED25519")
      && (receipt.read "signature_algorithm").eq (.str "ED25519"))
    "human authorization receipt signature algorithm mismatch"
  let invalid := "human authorization receipt signature encoding is invalid"
  let publicKey ← orRaise (canonicalBase64? (verifier.getD "public_key_base64" (.str "")).text)
    .authority invalid
  let signature ← orRaise (canonicalBase64? (receipt.getD "signature_base64" (.str "")).text)
    .authority invalid
  check .authority (publicKey.length == 32 && signature.length == 64)
    "human authorization receipt signature dimensions are invalid"
  check .authority
    (Crypto.verify publicKey signature
      (utf8 (canonicalJson (.mapping (receipt.erase "signature_base64")))))
    "human authorization receipt signature is invalid"

/-- The comparison of one field of a receipt: an integer is compared after `int`, a text after
`str(observed or "")`, and an absent value as it is. -/
def bindingMatches (observed expected : Value) : Bool :=
  match expected with
  | .int n => (observed.toInt.map Value.int).getD observed |>.eq (.int n)
  | .null => observed.eq .null
  | expected => (Value.str (if observed.truthy then observed.text else "")).eq expected

/-- `exact_bindings`, in the order the loop checks them. -/
def exactBindings (snapshot : CampaignSnapshot) (node : NodeSnapshot) (expectedKind nodeId : String) :
    List (String × Value) :=
  [("event_kind", .str expectedKind),
    ("campaign_id", .str snapshot.spec.campaignId),
    ("specification_digest", .str snapshot.spec.specificationDigest),
    ("specification_revision", .int snapshot.spec.specificationRevision),
    ("store_revision", .int snapshot.revision),
    ("authority_epoch", .int snapshot.authorityEpoch),
    ("cancellation_epoch", .int snapshot.cancellationEpoch),
    ("node_id", .str nodeId),
    ("candidate_head", candidateHeadValue node)]

/-- `_validate_human_authorization_receipt`: the identifier and the digest of the receipt. -/
def validateHumanAuthorizationReceipt (snapshot : CampaignSnapshot) (event : Event)
    (receipt : Mapping) : Result (String × String) := do
  let expectedKind ← orRaise (authorizationKind? event.eventType) .authority
    "event is not a human authorization transition"
  let nodeId ← orRaise (nonemptyText event.nodeId) .authority
    "human authorization requires an exact node"
  let node ← snapshot.node nodeId
  let receiptId := (receipt.getD "receipt_id" (.str "")).stripped
  let authorizedBy := (receipt.getD "authorized_by" (.str "")).stripped
  check .authority (receiptId != "" && authorizedBy != "")
    "human authorization receipt requires receipt_id and authorized_by"
  verifyHumanAuthorizationSignature snapshot receipt
  let recordedAuthorizer :=
    (snapshot.spec.publicationAuthority.getD "authorized_by" (.str "")).stripped
  check .authority (recordedAuthorizer != "" && authorizedBy == recordedAuthorizer)
    "human authorization receipt authorized_by differs from recorded authority"
  let supplied ← orRaise (receipt.getD "frozen_blocker_ids" (.tuple [])).items? .python
    "object is not iterable"
  forEach (exactBindings snapshot node expectedKind nodeId) fun (key, expected) =>
    check .authority (bindingMatches (receipt.read key) expected)
      ("human authorization receipt " ++ key ++ " binding mismatch")
  check .authority (supplied.map Value.text == node.blockerIds)
    "human authorization receipt frozen_blocker_ids binding mismatch"
  let digest := canonicalJsonDigest (.mapping receipt)
  check .authority
    ((event.payload.read "authorization_receipt_id").eq (.str receiptId)
      && (event.payload.read "authorization_receipt_digest").eq (.str digest))
    "authorization event does not bind the exact receipt identity and digest"
  return (receiptId, digest)

/-- `apply_human_authorized_event`: the receipt is consumed and the event applied in one transaction,
and neither can happen twice. -/
def Db.applyHumanAuthorizedEvent (db : Db) (event : Event) (receipt : Mapping) :
    Result (Transition × Db) := do
  let snapshot ← db.loadSnapshot event.campaignId
  let receiptId := (receipt.getD "receipt_id" (.str "")).stripped
  let receiptDigest := canonicalJsonDigest (.mapping receipt)
  check .authority (receiptId != "") "human authorization receipt requires receipt_id"
  match db.operations.get? receiptId with
  | some existing => do
      check .requestConflict (existing.payloadDigest == receiptDigest)
        "human authorization receipt identifier was rebound"
      fail .authority "human authorization receipt was already consumed"
  | none => do
      let validated ← validateHumanAuthorizationReceipt snapshot event receipt
      check .authority (validated == (receiptId, receiptDigest))
        "human authorization receipt canonical identity changed"
      let db ← db.beginOperation receiptId (some event.campaignId)
        ("HUMAN_AUTHORIZATION:" ++ event.eventType.value) receiptDigest (some snapshot.revision)
      let (transition, db) ← db.applyEventTx event
      return (transition, db.finishOperation receiptId
        (.humanAuthorization receiptDigest event.eventId transition.1.revision))

/-! ### Budgeted attempts -/

/-- The arguments of `consume_budget` and `reserve_budget_attempt`. -/
structure BudgetRequest where
  campaignId : String
  token : BudgetToken
  requestId : String
  expectedRevision : ℕ
  authorityEpoch : ℕ
  cancellationEpoch : ℕ
  nodeId : Option String := none
  fencingEpoch : Option ℕ := none

def BudgetRequest.event (r : BudgetRequest) : Result Event :=
  EventFields.build {
    eventId := r.requestId
    campaignId := r.campaignId
    eventType := .consumeBudget
    expectedRevision := r.expectedRevision
    authorityEpoch := r.authorityEpoch
    cancellationEpoch := r.cancellationEpoch
    nodeId := r.nodeId
    fencingEpoch := r.fencingEpoch
    payload := [("token", .str r.token.value)] }

/-- `reserve_budget_attempt`: the snapshot, and whether this call made the reservation. -/
def Db.reserveBudgetAttempt (db : Db) (r : BudgetRequest) :
    Result ((CampaignSnapshot × Bool) × Db) := do
  let event ← r.event
  match db.operations.get? r.requestId with
  | some _ => do
      let _ ← db.operationResult r.requestId (canonicalJsonDigest event.toDict)
      let current ← db.loadSnapshot r.campaignId
      return ((current, false), db)
  | none => do
      let (transition, db) ← db.applyEventTx event
      return ((transition.1, true), db)

/-! ### Runtime operations -/

/-- `record_runtime_operation`.  The prior result is returned as it stands. -/
def Db.recordRuntimeOperation (db : Db) (requestId campaignId kind : String)
    (payload result : Mapping) (revision : Option ℕ) : Result (OperationResult × Db) := do
  let payloadDigest := canonicalJsonDigest (.mapping payload)
  match ← db.operationResult requestId payloadDigest with
  | some prior => return (prior, db)
  | none => do
      let db ← db.beginOperation requestId (some campaignId) kind payloadDigest revision
      return (.runtime payload result, db.finishOperation requestId (.runtime payload result))

/-! ### Evidence -/

def terminalProtocol : String := "ccos-native-terminal-receipt-v1"

/-- The part of an admission receipt its digest is taken of. -/
def admissionPayload (payload : Mapping) : Mapping :=
  [("repository", payload.read "repository"),
    ("installed_runtime", payload.read "installed_runtime"),
    ("allowed_paths", payload.read "allowed_paths"),
    ("validation_commands", payload.read "validation_commands"),
    ("human_authorization_verifier", payload.read "human_authorization_verifier")] ++
    ((payload.get? "acceptance_sources").map fun sources => ("acceptance_sources", sources)).toList

/-- The digest a payload claims and the one it should have. -/
def evidenceDigests (payload : Mapping) (terminal : Bool) : Result (String × String) :=
  if terminal then .ok (
    (payload.getD "receipt_digest" (.str "")).text,
    canonicalJsonDigest (.mapping (payload.erase "receipt_digest")))
  else match payload.get? "evidence_sha256", payload.get? "admission_sha256" with
    | some claimed, _ => .ok (
        claimed.text, canonicalJsonDigest (.mapping (payload.erase "evidence_sha256")))
    | none, some claimed => .ok (
        claimed.text, canonicalJsonDigest (.mapping (admissionPayload payload)))
    | none, none => fail .authority "evidence payload has no recognized digest field"

/-- `_verify_evidence_digest`. -/
def verifyEvidenceDigest (item : Evidence) (terminal : Bool) : Result Unit := do
  let isTerminal := (item.payload.getD "protocol_version" (.str "")).text == terminalProtocol
  check .authority (isTerminal == terminal)
    (if isTerminal then "native terminal receipts require the attested evidence path"
      else "terminal evidence has the wrong receipt protocol")
  let (claimed, expected) ← evidenceDigests item.payload isTerminal
  check .authority (claimed != "" && claimed == item.digest && expected == item.digest)
    "evidence digest does not match its canonical payload"

/-- `_insert_evidence`. -/
def Db.insertEvidence (db : Db) (item : Evidence) : Result Db :=
  match db.evidence.get? item.evidenceId with
  | some existing => do
      check .requestConflict
        (existing.digest == item.digest
          && canonicalJson (.mapping existing.payload) == canonicalJson (.mapping item.payload))
        "evidence identifier was rebound"
      return db
  | none => do
      db.checkCampaign item.campaignId
      let evidence ← uniqueViolation
        (db.evidence.insert? {
          evidenceId := item.evidenceId
          campaignId := item.campaignId
          nodeId := item.nodeId
          kind := item.kind
          digest := item.digest
          candidateHead := item.candidateHead
          payload := item.payload }) "evidence.evidence_id"
      return { db with evidence }

/-- `record_evidence`. -/
def Db.recordEvidence (db : Db) (item : Evidence) : Result Db := do
  verifyEvidenceDigest item false
  db.insertEvidence item

/-- An epoch of a terminal receipt: `int(payload.get(key, -1))`. -/
def receiptEpoch (payload : Mapping) (key : String) : Result ℤ :=
  orRaise (payload.getD key (.int (-1))).toInt .python "int() argument is not an integer"

/-- The comparison of a terminal receipt with the active native binding of its actor. -/
def checkTerminalBinding (snapshot : CampaignSnapshot) (actor : ActorRow) (lease : LeaseRow)
    (item : Evidence) : Result Unit := do
  let payload := item.payload
  let fencingEpoch ← receiptEpoch payload "fencing_epoch"
  let cancellationEpoch ← receiptEpoch payload "cancellation_epoch"
  let authorityEpoch ← receiptEpoch payload "authority_epoch"
  check .authority
    (lease.state == .active && actor.used
      && actor.boundRequestId.any (· != "") && actor.identityDigest.any (· != "")
      && actor.actor.campaignId == item.campaignId && actor.actor.nodeId == item.nodeId
      && lease.campaignId == item.campaignId && some lease.nodeId == item.nodeId
      && (payload.read "role").eq (.str actor.actor.role.value)
      && (payload.read "native_thread_id").eq (.str actor.actor.nativeThreadId)
      && fencingEpoch == lease.fencingEpoch
      && cancellationEpoch == lease.cancellationEpoch
      && authorityEpoch == actor.actor.authorityEpoch
      && snapshot.authorityEpoch == actor.actor.authorityEpoch
      && snapshot.cancellationEpoch == lease.cancellationEpoch
      && (payload.getD "native_turn_id" (.str "")).text != "")
    "terminal receipt differs from the active native actor binding"
  check .authority ((payload.read "candidate_head").eq (optionalText item.candidateHead))
    "terminal receipt candidate head was changed"

/-- What a review receipt must add: its reviewer and the frozen head. -/
def checkReviewReceipt (snapshot : CampaignSnapshot) (actor : Actor) (item : Evidence) :
    Result Unit := do
  if [ActorRole.reviewer, .closureReviewer].contains actor.role then
    let unbound := "review receipt is not bound to its assigned reviewer and frozen head"
    let principal ← orRaise (nonemptyText actor.principalId) .authority unbound
    let result ← orRaise (item.payload.read "result_payload").asMapping? .authority unbound
    check .authority ((result.read "reviewer_id").eq (.str principal)) unbound
    let node ← snapshot.node (optionalText item.nodeId).text
    check .authority (node.candidateHead == item.candidateHead) unbound

/-- `record_terminal_evidence`. -/
def Db.recordTerminalEvidence (db : Db) (item : Evidence) : Result Db := do
  check .authority (item.kind == .git || item.kind == .review)
    "terminal evidence kind must be GIT or REVIEW"
  verifyEvidenceDigest item true
  let actorId := (item.payload.getD "actor_id" (.str "")).text
  let leaseId := (item.payload.getD "lease_id" (.str "")).text
  let operationId := "attest:" ++ item.evidenceId
  let operationDigest := canonicalJsonDigest item.toDict
  match ← db.operationResult operationId operationDigest with
  | some _ => return db
  | none => do
      let missing := "terminal receipt actor lease is missing"
      let lease ← orRaise ((db.leases.get? leaseId).filter (·.actorId == actorId)) .authority missing
      let actor ← orRaise (db.actors.get? actorId) .authority missing
      let snapshot ← db.loadSnapshot item.campaignId
      checkTerminalBinding snapshot actor lease item
      checkReviewReceipt snapshot actor.actor item
      let db ← db.beginOperation operationId (some item.campaignId)
        "ATTEST_NATIVE_TERMINAL_RECEIPT" operationDigest (some snapshot.revision)
      let db ← db.insertEvidence item
      return db.finishOperation operationId (.attestation item.evidenceId item.digest actorId leaseId
        (item.payload.read "native_thread_id") (item.payload.read "native_turn_id")
        actor.actor.principalId)

/-! ### Reviews -/

/-- `record_review`. -/
def Db.recordReview (db : Db) (review : ReviewRow) : Result Db :=
  match db.reviews.get? review.reviewId with
  | some existing => do
      check .requestConflict
        (existing.campaignId == review.campaignId && existing.nodeId == review.nodeId
          && existing.cohortDigest == review.cohortDigest
          && existing.candidateHead.getD "" == review.candidateHead.getD "")
        "review identifier was rebound"
      check .requestConflict
        (match existing.receipt, review.receipt with
          | some frozen, some receipt =>
              canonicalJson (.mapping frozen) == canonicalJson (.mapping receipt)
          | _, _ => true) "frozen review receipt was rebound"
      return { db with
        reviews := db.reviews.update (·.reviewId == review.reviewId)
          (fun row => { row with
            state := review.state
            receipt := row.receipt.or review.receipt }) fun _ => rfl }
  | none => do
      db.checkNode review.campaignId review.nodeId
      let reviews ← uniqueViolation (db.reviews.insert? review) "reviews.review_id"
      return { db with reviews }

/-! ### Native usage -/

/-- The fields of a usage report, with the names the store gives them. -/
def nativeUsageFields : List (String × String) :=
  [("inputTokens", "input_tokens"), ("cachedInputTokens", "cached_input_tokens"),
    ("cacheWriteInputTokens", "cache_write_input_tokens"), ("outputTokens", "output_tokens"),
    ("reasoningOutputTokens", "reasoning_output_tokens"), ("totalTokens", "total_tokens")]

/-- A count of tokens: an integer of SQLite's range that is not a bool. -/
def tokenCount? : Value → Option ℤ
  | .int n => if 0 ≤ n ∧ n < 2 ^ 63 then some n else none
  | _ => none

/-- `_native_usage_breakdown`. -/
def nativeUsageBreakdown (value : Value) : Option Mapping := do
  let usage ← value.asMapping?
  let counts ← nativeUsageFields.mapM fun (native, name) => do
    let default := if native == "cacheWriteInputTokens" then Value.int 0 else .null
    let count ← tokenCount? (usage.getD native default)
    return (name, count)
  let count := fun name => (counts.lookup name).getD 0
  if count "total_tokens" ≠ count "input_tokens" + count "output_tokens"
      ∨ count "cached_input_tokens" > count "input_tokens"
      ∨ count "cache_write_input_tokens" > count "input_tokens"
      ∨ count "reasoning_output_tokens" > count "output_tokens" then none
  else some (counts.map fun (name, count) => (name, .int count))

def nativeUsageCategory : String := "native_provider_usage"

/-- `record_native_usage`, at the time `recordedAt` the clock gave. -/
def Db.recordNativeUsage (db : Db) (actorId : String) (notification : Mapping)
    (recordedAt : String) : Result (Value × Db) := do
  let identifier := fun key : String =>
    orRaise ((notification.read key).asText?.filter fun text => text != "" && text.length ≤ 256)
      .authority "native usage requires exact thread and turn identifiers"
  let threadId ← identifier "threadId"
  let turnId ← identifier "turnId"
  let usage := ((notification.read "tokenUsage").asMapping?).getD []
  let cumulative := nativeUsageBreakdown (usage.read "total")
  let last := nativeUsageBreakdown (usage.read "last")
  let breakdown := fun b : Option Mapping => (b.map Value.mapping).getD .null
  let report : Mapping := [
    ("native_thread_id", .str threadId),
    ("native_turn_id", .str turnId),
    ("cumulative", breakdown cumulative),
    ("last", breakdown last),
    ("status", .str (if cumulative.isSome && last.isSome then "observed" else "unavailable"))]
  let telemetryId := "native-usage:"
    ++ canonicalJsonDigest (.mapping [("actor_id", .str actorId), ("report", .mapping report)])
  let actor ← orRaise
    ((db.actors.get? actorId).filter fun actor =>
      actor.used && actor.identityDigest.any (· != "") && actor.boundRequestId.any (· != "")
        && actor.nativeThreadId != "UNBOUND" && actor.nativeThreadId == threadId)
    .authority "native usage does not match a durably bound actor"
  match db.telemetry.get? telemetryId with
  | some prior => return (prior.payload, db)
  | none => do
      let snapshot ← db.loadSnapshot actor.campaignId
      let payload := Value.mapping ([
        ("protocol_version", .str "ccos-native-provider-usage-v1"),
        ("source", .str "thread/tokenUsage/updated"),
        ("actor_id", .str actorId),
        ("role", .str actor.role.value),
        ("node_id", optionalText actor.nodeId),
        ("recorded_at_utc", .str recordedAt),
        ("recorded_campaign_state", .str snapshot.state.value)] ++ report)
      let telemetry ← uniqueViolation
        (db.telemetry.insert? {
          telemetryId
          campaignId := actor.campaignId
          category := nativeUsageCategory
          payload }) "telemetry.telemetry_id"
      return (payload, { db with telemetry })

end CodingOS.Store
