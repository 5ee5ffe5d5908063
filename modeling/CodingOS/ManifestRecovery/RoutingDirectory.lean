import CodingOS.ManifestRecovery.Generation
import CodingOS.Systems.Session

/-!
# The routing directory

The files one routing directory holds, and what the programs of `capability_manifest_recovery.py` ask of
them, of the clock and of the rest of the host.  The programs run under one mutex, so a function that
only reads is one question.  A file replaced by `os.replace` holds its old or its new content, whatever
is cut; a file created in place can be left with a part of what was to be written.
-/

namespace CodingOS.ManifestRecovery

open CodingOS.Python Systems

/-! ### Transaction records -/

inductive Lane
  | coherentAppUpdate | compoundAppPrimaryRuntimeUpdate | primaryRuntimeBundleUpdate
  | workerRuntimeBomUpdate | scopedConfigUpdate | updaterBoundPluginUpdate | operatorRebaseline
deriving DecidableEq

inductive TerminalStatus
  | committed | denied | error
deriving DecidableEq

/-- The stable fields of the record that begins a transaction. -/
structure BeginRecord where
  transactionId : String
  lane : Lane
  previousGenerationId : Option String
  expectedAuthoritySnapshotSha256 : String
  expectedCandidateSha256 : String
  authorizationSha256 : String
deriving DecidableEq

/-- The stable fields of the record that ends a transaction. -/
structure TerminalRecord where
  transactionId : String
  lane : Lane
  status : TerminalStatus
  reasonCode : String
  generationId : String
  expectedAuthoritySnapshotSha256 : String
  expectedCandidateSha256 : String
  observedAuthoritySnapshotSha256 : String
  observedCandidateSha256 : String
deriving DecidableEq

/-- A record file: the stable fields with `recorded_at`, or a part of the text, which reads as the empty
object. -/
inductive Stored (α : Type)
  | torn
  | record (stable : α) (recordedAt : String)

/-- The stable fields a record file holds. -/
def Stored.stable? {α : Type} : Stored α → Option α
  | .torn => none
  | .record stable _ => some stable

/-! ### Files -/

structure Files where
  pointer : Option Pointer := none
  generation : String → Option (List UInt8) := fun _ => none
  compatibility : Option (List UInt8) := none
  candidate : String → Option (List UInt8) := fun _ => none
  opening : String → Option (Stored BeginRecord) := fun _ => none
  terminal : String → Option (Stored TerminalRecord) := fun _ => none

/-! ### Operations -/

/-- What stops a run before it writes anything. -/
inductive Refusal
  | denied (reasonCode : String)
  | error (reasonCode : String)

/-- What a repeated read of the authority snapshot gives: its digest, or why there is none. -/
inductive Snapshot
  | stable (sha256 : String)
  | unstable (reasonCode : String)

/-- What came of building and checking a candidate. -/
inductive Built
  | ready (content : List UInt8)
  | denied (reasonCode : String)
  | raised

/-- What `load_active_capabilities` and the checks after a commit find; what it raises may be a
`CapabilityDataError`. -/
inductive Installed
  | fresh
  | degraded (reasonCode : String)
  | raised (data : Bool)

inductive RoutingOp
  | now
  | readPointer
  | readGeneration (id : String)
  | createGeneration (id : String) (content : List UInt8)
  | replacePointer (pointer : Pointer)
  | repairCompatibility (content : List UInt8)
  | readCandidate (id : String)
  | createCandidate (id : String) (content : List UInt8)
  | readBegin (id : String)
  | createBegin (id : String) (stable : BeginRecord) (recordedAt : String)
  | readTerminal (id : String)
  | createTerminal (id : String) (stable : TerminalRecord) (recordedAt : String)
  | preflight
  | review
  | finalSnapshot
  | generationFresh (id : String)
  | recoveryPreflight
  | build
  | installed

/-- The answers.  A file that is created answers what it already held, and the copy for older readers the
name of the error that kept it from being repaired. -/
abbrev RoutingAnswer : RoutingOp → Type
  | .now => String
  | .readPointer => Except AuthorityError (Option Pointer)
  | .readGeneration _ | .createGeneration _ _ | .readCandidate _ | .createCandidate _ _ =>
      Option (List UInt8)
  | .replacePointer _ => Unit
  | .repairCompatibility _ => Option String
  | .readBegin _ => Option (Stored BeginRecord)
  | .createBegin _ _ _ | .createTerminal _ _ _ => Bool
  | .readTerminal _ => Option (Stored TerminalRecord)
  | .preflight => Option Refusal
  | .review => Except Refusal (List UInt8)
  | .finalSnapshot => Snapshot
  | .generationFresh _ => Bool
  | .recoveryPreflight => Except Refusal (Lane × String)
  | .build => Built
  | .installed => Installed

namespace Files

def setGeneration (f : Files) (id : String) (content : List UInt8) : Files :=
  { f with generation := Function.update f.generation id (some content) }

def setCandidate (f : Files) (id : String) (content : List UInt8) : Files :=
  { f with candidate := Function.update f.candidate id (some content) }

def setBegin (f : Files) (id : String) (stored : Stored BeginRecord) : Files :=
  { f with opening := Function.update f.opening id (some stored) }

def setTerminal (f : Files) (id : String) (stored : Stored TerminalRecord) : Files :=
  { f with terminal := Function.update f.terminal id (some stored) }

variable [Runtime] [FileDigest] [Decoder]

/-- What `_read_generation_pointer` returns or raises. -/
def current (f : Files) : Except AuthorityError (Option Pointer) :=
  readGenerationPointer f.pointer f.generation

end Files

/-- The operations.  A crash inside the creation of a file leaves any part of its content. -/
def routingMachine [Runtime] [FileDigest] [Decoder] : Machine RoutingAnswer Files where
  step
    | .readPointer, f, answer, f' => answer = f.current ∧ f' = f
    | .readGeneration id, f, answer, f' => answer = f.generation id ∧ f' = f
    | .createGeneration id content, f, answer, f' => answer = f.generation id ∧
        f' = if (f.generation id).isNone then f.setGeneration id content else f
    | .replacePointer pointer, f, _, f' => f' = { f with pointer := some pointer }
    | .repairCompatibility content, f, answer, f' =>
        (answer = none ∧ f' = { f with compatibility := some content }) ∨
          (answer.isSome ∧ f' = f)
    | .readCandidate id, f, answer, f' => answer = f.candidate id ∧ f' = f
    | .createCandidate id content, f, answer, f' => answer = f.candidate id ∧
        f' = if (f.candidate id).isNone then f.setCandidate id content else f
    | .readBegin id, f, answer, f' => answer = f.opening id ∧ f' = f
    | .createBegin id stable recordedAt, f, answer, f' => answer = (f.opening id).isNone ∧
        f' = if (f.opening id).isNone then f.setBegin id (.record stable recordedAt) else f
    | .readTerminal id, f, answer, f' => answer = f.terminal id ∧ f' = f
    | .createTerminal id stable recordedAt, f, answer, f' => answer = (f.terminal id).isNone ∧
        f' = if (f.terminal id).isNone then f.setTerminal id (.record stable recordedAt) else f
    | .now, f, _, f' | .preflight, f, _, f' | .review, f, _, f' | .finalSnapshot, f, _, f'
    | .generationFresh _, f, _, f' | .recoveryPreflight, f, _, f' | .build, f, _, f'
    | .installed, f, _, f' => f' = f
  torn
    | .createGeneration id content, f, f' => f.generation id = none ∧
        ∃ written, written <+: content ∧ f' = f.setGeneration id written
    | .createCandidate id content, f, f' => f.candidate id = none ∧
        ∃ written, written <+: content ∧ f' = f.setCandidate id written
    | .createBegin id _ _, f, f' => f.opening id = none ∧ f' = f.setBegin id .torn
    | .createTerminal id _ _, f, f' => f.terminal id = none ∧ f' = f.setTerminal id .torn
    | _, _, _ => False

/-! ### Programs -/

abbrev Task (α : Type) := Program RoutingAnswer AuthorityError α

def ask (op : RoutingOp) : Task (RoutingAnswer op) := Program.perform op

/-- `if not condition: raise RuntimeError(message)`. -/
def require (condition : Bool) (message : String) : Task Unit :=
  Program.ofExcept (ensure condition message)

theorem require_true (message : String) : require true message = .ret () := rfl

end CodingOS.ManifestRecovery
