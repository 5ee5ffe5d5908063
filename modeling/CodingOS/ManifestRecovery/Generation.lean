import CodingOS.Python.Bytes
import CodingOS.Python.Json

/-!
# Authority generations

The documents of `capability_manifest_recovery.py`: the generation a manifest declares, its identity, the
pointer to the current generation, and the checks that tie a pointer to the manifest it names.
-/

namespace CodingOS.ManifestRecovery

open CodingOS.Python

/-- `json.loads(content.decode("utf-8"))`, where it raises nothing. -/
class Decoder where
  loads : List UInt8 → Option Value

/-! ### Errors and texts -/

inductive ErrorKind
  | runtime | value | type | os | data
deriving DecidableEq

/-- An exception of the module. -/
structure AuthorityError where
  kind : ErrorKind
  message : String
deriving DecidableEq

def ensure (condition : Bool) (message : String) : Except AuthorityError Unit :=
  if condition then .ok () else .error ⟨.runtime, message⟩

def orRaise {α : Type} (value : Option α) (message : String) : Except AuthorityError α :=
  match value with
  | some a => .ok a
  | none => .error ⟨.runtime, message⟩

/-- `SHA256_PATTERN.fullmatch` and `AUTHORITY_GENERATION_ID_PATTERN.fullmatch` of `capability_index.py`. -/
def isDigest (text : String) : Bool := text.length == 64 && isLowerHex text

/-- `TRANSACTION_ID_PATTERN.fullmatch`, which is also `EXECUTION_REQUEST_ID_PATTERN.fullmatch`. -/
def isTransactionId (text : String) : Bool :=
  text.toList.all (fun c => c.isAlphanum || ['.', '_', ':', '-'].contains c)
    && 1 ≤ text.length && text.length ≤ 160

/-- The value of a text, or `None`. -/
def optionalText : Option String → Value
  | some s => .str s
  | none => .null

def pointerSchema : String := "capability-authority-pointer-v1"

def generationFields : List String := [
  "id", "sequence", "previous_id", "transaction_id", "promoted_at", "promotion_reason",
  "static_authority_sha256", "dynamic_authority_sha256", "config_projection_sha256",
  "plugin_inventory_sha256", "worker_runtime_bom_sha256", "authority_snapshot_sha256"]

def digestFields : List String := generationFields.drop 6

def promotionReasons : List String := [
  "primary_runtime_bundle_update", "compound_app_primary_runtime_update",
  "updater_bound_plugin_update", "scoped_config_update", "operator_rebaseline",
  "coherent_app_update", "worker_runtime_bom_update"]

section Documents

variable [Runtime]

/-- `str(value or "")`. -/
def orEmpty (v : Value) : String := if v.truthy then v.text else ""

/-- `SHA256_PATTERN.fullmatch` of the module, which also takes upper-case digits. -/
def isAnyCaseDigest (text : String) : Bool :=
  text.length == 64 && text.toList.all fun c => "0123456789abcdefABCDEF".toList.contains c

/-- `_normalized_sha256`. -/
@[irreducible] def normalizedSha256 (v : Value) : String :=
  let text := strip (orEmpty v)
  if isAnyCaseDigest text then lower text else ""

/-! ### The identity of a generation -/

/-- The fields of a generation that its identity is computed from. -/
def generationPayload (g : Mapping) : Mapping :=
  (generationFields.drop 1).map fun name => (name, g.read name)

/-- `json.dumps(payload, ensure_ascii=False, separators=(",", ":"))`. -/
def dumps (payload : Mapping) : String :=
  "\x7b" ++ String.intercalate ","
    ((jsonEntries payload).map fun e => jsonText e.1 ++ ":" ++ e.2) ++ "\x7d"

/-- The checks of `authority_generation_id` before the one on the promotion reason. -/
def numberedGeneration (g : Mapping) : Bool :=
  generationFields.all (g.map (·.1)).contains && (g.map (·.1)).all generationFields.contains
    && (match Mapping.read g "sequence" with
      | .int n => 1 ≤ n
      | _ => false)
    && (Mapping.read g "previous_id" == .null || isDigest (Mapping.read g "previous_id").text)
    && isTransactionId (orEmpty (Mapping.read g "transaction_id"))
    && orEmpty (Mapping.read g "promoted_at") != ""

/-- The remaining checks. -/
def attestedGeneration (g : Mapping) : Bool :=
  (Mapping.read g "promotion_reason").memberOf (promotionReasons.map .str)
    && digestFields.all fun name => isDigest (orEmpty (Mapping.read g name))

/-- Whether a decoded value is a list or a dictionary: looking it up in a set raises. -/
def isContainer : Value → Bool
  | .tuple _ | .mapping _ => true
  | _ => false

/-- `authority_generation_id`. -/
def authorityGenerationId (g : Mapping) : Except AuthorityError String :=
  if !numberedGeneration g then .ok ""
  else if isContainer (Mapping.read g "promotion_reason") then .error ⟨.type, "unhashable type"⟩
  else .ok (if attestedGeneration g then Runtime.sha256 (dumps (generationPayload g)) else "")

/-- `str(generation.get("id") or "").lower()`. -/
def declaredId (g : Mapping) : String := lower (orEmpty (g.read "id"))

/-! ### The pointer -/

/-- What `current-generation.json` holds. -/
structure Pointer where
  schemaVersion : String
  generationId : String
  sequence : ℤ
  previousGenerationId : Option String
  manifestPath : String
  manifestSha256 : String
  transactionId : String
  promotedAt : String
deriving DecidableEq

/-- `Path("generations") / f"generation-{generation_id}.json"`. -/
def generationPath (generationId : String) : String :=
  "generations/generation-" ++ generationId ++ ".json"

/-- The test of `_read_generation_pointer` on the pointer alone. -/
def Pointer.wellFormed (p : Pointer) : Bool :=
  p.schemaVersion == pointerSchema
    && isDigest (lower p.generationId)
    && isDigest (lower p.manifestSha256)
    && 1 ≤ p.sequence
    && p.manifestPath == generationPath (lower p.generationId)
    && (match p.previousGenerationId with
      | none => true
      | some previous => isDigest (lower previous))
    && isTransactionId p.transactionId

/-- The snapshot a manifest of the generation declares. -/
def snapshotOf (generationId : String) : String := "authority-generation:" ++ generationId

variable [FileDigest] [Decoder]

/-- `_read_manifest`, on the bytes of the file: what is no JSON object reads as the empty one. -/
def readManifest (content : List UInt8) : Mapping :=
  match Decoder.loads content with
  | some (.mapping entries) => entries
  | _ => []

/-- The test of `_read_generation_pointer` on the manifest the pointer names. -/
def Pointer.identifies (p : Pointer) (manifest : Mapping) : Except AuthorityError Bool :=
  match manifest.read "authority_generation" with
  | .mapping g =>
      if declaredId g != lower p.generationId then .ok false
      else do
        let computed ← authorityGenerationId g
        return computed == lower p.generationId
          && (Mapping.read g "sequence").eq (.int p.sequence)
          && (Mapping.read g "previous_id").eq (optionalText p.previousGenerationId)
          && (Mapping.read g "transaction_id").eq (.str p.transactionId)
          && (manifest.read "snapshot_id").eq (.str (snapshotOf (lower p.generationId)))
  | _ => .ok false

/-- `_read_generation_pointer`, given the pointer and the bytes of the files in `generations`. -/
def readGenerationPointer (pointer : Option Pointer) (generation : String → Option (List UInt8)) :
    Except AuthorityError (Option Pointer) :=
  match pointer with
  | none => .ok none
  | some p => do
      ensure p.wellFormed "authority generation pointer is invalid"
      let content ← orRaise (generation (lower p.generationId))
        "authority generation artifact is unavailable"
      ensure (FileDigest.sha256 content == lower p.manifestSha256)
        "authority generation artifact hash mismatch"
      let identified ← p.identifies (readManifest content)
      ensure identified "authority generation artifact identity mismatch"
      return some p

/-! ### Candidates -/

/-- A candidate that passed its checks: its bytes, the generation it declares and the identity of that. -/
structure Candidate where
  content : List UInt8
  generation : Mapping
  generationId : String

/-- `manifest_sha256`. -/
def Candidate.sha256 (k : Candidate) : String := FileDigest.sha256 k.content

/-- The checks of `promote_manifest_generation` on the candidate, before it reads the pointer. -/
def readCandidate (file : Option (List UInt8)) (transactionId expectedCandidateSha256 : String) :
    Except AuthorityError Candidate := do
  let content ← orRaise file "candidate manifest is unavailable or invalid"
  let value ← orRaise (Decoder.loads content) "candidate manifest is unavailable or invalid"
  let manifest ← orRaise value.asMapping? "candidate manifest root is invalid"
  let reviewed := normalizedSha256 (.str expectedCandidateSha256)
  ensure (expectedCandidateSha256 == "" || reviewed != "")
    "candidate compare-and-swap digest is invalid"
  ensure (reviewed == "" || FileDigest.sha256 content == reviewed)
    "candidate compare-and-swap precondition failed"
  let generation ← orRaise (manifest.read "authority_generation").asMapping?
    "candidate has no authority generation"
  let generationId := declaredId generation
  ensure (isDigest generationId) "candidate authority generation binding is invalid"
  let computed ← authorityGenerationId generation
  ensure (computed == generationId && (generation.read "transaction_id").eq (.str transactionId)
      && orEmpty (manifest.read "snapshot_id") == snapshotOf generationId)
    "candidate authority generation binding is invalid"
  return { content, generation, generationId }

/-- The pointer a candidate is committed with. -/
def Candidate.pointer (k : Candidate) (transactionId : String)
    (expectedPreviousGenerationId : Option String) (sequence : ℤ) : Pointer where
  schemaVersion := pointerSchema
  generationId := k.generationId
  sequence
  previousGenerationId := expectedPreviousGenerationId
  manifestPath := generationPath k.generationId
  manifestSha256 := k.sha256
  transactionId
  promotedAt := orEmpty (k.generation.read "promoted_at")

end Documents

end CodingOS.ManifestRecovery
