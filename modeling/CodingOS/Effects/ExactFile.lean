import CodingOS.Python.Bytes
import CodingOS.Systems.Program

/-!
# The exact-file driver

`ExactFileEffectDriver.replace` of `effects.py`: the replacement of one regular file by given bytes, with a
journal under the digest of the operation identifier, a backup of what is replaced, and a temporary file that
is renamed over the target.

The driver is a program over the files it uses.  A rename is atomic, so the journal is kept as the document it
holds; the backup and the temporary file are written in place and may be left with any part.  Others may change
the targets of `touched`, and no file of the driver, before every operation.
-/

namespace CodingOS.Effects

open CodingOS.Python Systems

/-! ### Documents -/

inductive DriverErrorKind
  | effect | conflict | os
deriving DecidableEq

structure DriverError where
  kind : DriverErrorKind
  message : String
deriving DecidableEq

/-- The arguments of `replace`.  The target is the resolved path. -/
structure Replacement where
  operationId : String
  target : String
  expectedBaselineSha256 : String
  replacement : List UInt8
  expectedReplacementSha256 : String
deriving DecidableEq

inductive JournalState | prepared | confirmed
deriving DecidableEq

/-- The journal of one operation. -/
structure Journal where
  protocolVersion : String := "ccos-exact-file-effect-v1"
  operationId : String
  target : String
  baselineSha256 : String
  replacementSha256 : String
  backup : Option String := none
  state : JournalState
  replayed : Bool
deriving DecidableEq

/-- The journal is of the same target and digests. -/
def Journal.binds (j : Journal) (r : Replacement) : Bool :=
  j.target == r.target && j.replacementSha256 == r.expectedReplacementSha256
    && j.baselineSha256 == r.expectedBaselineSha256

/-! ### Files -/

/-- The targets, by path, and the files of the driver: journals and backups by the stem of their names,
temporary files by a number. -/
structure Disk where
  target : String → Option (List UInt8)
  single : String → Bool
  journal : String → Option Journal
  backup : String → Option (List UInt8)
  temporary : ℕ → Option (List UInt8)

inductive FileOp
  | examine (path : String)
  | readJournal (stem : String)
  | saveJournal (stem : String) (journal : Journal)
  | readTarget (path : String)
  | writeBackup (stem : String) (data : List UInt8)
  | readBackup (stem : String)
  | makeTemporary
  | writeTemporary (tag : ℕ) (data : List UInt8)
  | readTemporary (tag : ℕ)
  | installTemporary (tag : ℕ) (path : String)
  | installBackup (stem : String) (path : String)
  | removeTemporary (tag : ℕ)

/-- What the operations give. -/
abbrev FileResult : FileOp → Type
  | .examine _ => Bool
  | .readJournal _ => Option Journal
  | .readTarget _ | .readBackup _ | .readTemporary _ => List UInt8
  | .makeTemporary => ℕ
  | .saveJournal _ _ | .writeBackup _ _ | .writeTemporary _ _ | .installTemporary _ _ | .installBackup _ _
  | .removeTemporary _ => Unit

/-- The answers: nothing for an `OSError`. -/
abbrev FileAnswer (op : FileOp) : Type := Option (FileResult op)

/-- An operation that is carried out. -/
def Performs : (op : FileOp) → Disk → FileAnswer op → Disk → Prop
  | .examine path, s, answer, t => answer = (s.target path).map (fun _ => s.single path) ∧ t = s
  | .readJournal stem, s, answer, t => answer = some (s.journal stem) ∧ t = s
  | .saveJournal stem journal, s, answer, t =>
      answer = some () ∧ t = { s with journal := Function.update s.journal stem (some journal) }
  | .readTarget path, s, answer, t => answer = s.target path ∧ t = s
  | .writeBackup stem data, s, answer, t =>
      answer = some () ∧ t = { s with backup := Function.update s.backup stem (some data) }
  | .readBackup stem, s, answer, t => answer = s.backup stem ∧ t = s
  | .makeTemporary, s, answer, t => ∃ tag, s.temporary tag = none ∧ answer = some tag ∧
      t = { s with temporary := Function.update s.temporary tag (some []) }
  | .writeTemporary tag data, s, answer, t =>
      answer = some () ∧ t = { s with temporary := Function.update s.temporary tag (some data) }
  | .readTemporary tag, s, answer, t => answer = s.temporary tag ∧ t = s
  | .installTemporary tag path, s, answer, t => answer = (s.temporary tag).map (fun _ => ()) ∧
      t = if (s.temporary tag).isSome then
          { s with
            target := Function.update s.target path (s.temporary tag)
            single := Function.update s.single path true
            temporary := Function.update s.temporary tag none }
        else s
  | .installBackup stem path, s, answer, t => answer = (s.backup stem).map (fun _ => ()) ∧
      t = if (s.backup stem).isSome then
          { s with
            target := Function.update s.target path (s.backup stem)
            single := Function.update s.single path true
            backup := Function.update s.backup stem none }
        else s
  | .removeTemporary tag, s, answer, t =>
      answer = some () ∧ t = { s with temporary := Function.update s.temporary tag none }

/-- What an operation that is cut short leaves: a part of what is written in place. -/
def Leaves : FileOp → Disk → Disk → Prop
  | .writeBackup stem _, s, t => ∃ part, t = { s with backup := Function.update s.backup stem part }
  | .writeTemporary tag _, s, t => ∃ part, t = { s with temporary := Function.update s.temporary tag part }
  | .makeTemporary, s, t => t = s ∨ ∃ tag, s.temporary tag = none ∧
      t = { s with temporary := Function.update s.temporary tag (some []) }
  | _, s, t => t = s

/-- What others do between the operations. -/
structure Touches (touched : Set String) (s t : Disk) : Prop where
  targets : ∀ path, path ∉ touched → t.target path = s.target path ∧ t.single path = s.single path
  journal : t.journal = s.journal
  backup : t.backup = s.backup
  temporary : t.temporary = s.temporary

theorem Touches.refl (touched : Set String) (s : Disk) : Touches touched s s :=
  ⟨fun _ _ => ⟨rfl, rfl⟩, rfl, rfl, rfl⟩

/-- The files, with an `OSError` from any operation when `faulty`. -/
def fileMachine (touched : Set String) (faulty : Prop) : Machine FileAnswer Disk where
  step op s answer t := ∃ u, Touches touched s u ∧
    (Performs op u answer t ∨ faulty ∧ Leaves op u t ∧ answer = none)
  torn op s t := ∃ u, Touches touched s u ∧ (Leaves op u t ∨ ∃ answer, Performs op u answer t)

/-! ### The program -/

section Program

variable [Runtime] [FileDigest]

abbrev Task (α : Type) := Program FileAnswer DriverError α

def raise {α : Type} (kind : DriverErrorKind) (message : String) : Task α := .raise ⟨kind, message⟩

/-- An operation, which may raise an `OSError`. -/
def ask (op : FileOp) : Task (FileResult op) :=
  .call op fun answer => match answer with
    | some result => .ret result
    | none => raise .os "OSError"

/-- `if not condition: raise`. -/
def ensure (condition : Bool) (kind : DriverErrorKind) (message : String) : Task Unit :=
  if condition then pure () else raise kind message

/-- `re.fullmatch(r"[A-Za-z0-9][A-Za-z0-9._:-]{0,255}", text)`. -/
def isStableId (text : String) : Bool :=
  text.toList.all (fun c => c.isAlphanum || ['.', '_', ':', '-'].contains c)
    && text.toList.head?.any Char.isAlphanum && text.length ≤ 256

/-- `SHA256_RE.fullmatch`. -/
def isSha256 (s : String) : Bool := s.length == 64 && isLowerHex s

namespace Replacement

/-- The operation identifier, stripped by `_stable_id`. -/
def operation (r : Replacement) : String := strip r.operationId

/-- `operation_file_stem`. -/
def stem (r : Replacement) : String := Runtime.sha256 r.operation

/-- The checks on the arguments. -/
def admissible (r : Replacement) : Bool :=
  isStableId r.operation && isSha256 r.expectedBaselineSha256 && isSha256 r.expectedReplacementSha256
    && FileDigest.sha256 r.replacement == r.expectedReplacementSha256

/-- `prepared`. -/
def prepared (r : Replacement) : Journal where
  operationId := r.operation
  target := r.target
  baselineSha256 := r.expectedBaselineSha256
  replacementSha256 := r.expectedReplacementSha256
  backup := some (r.stem ++ ".baseline")
  state := .prepared
  replayed := false

/-- `result` of a target that already holds the replacement. -/
def found (r : Replacement) : Journal where
  operationId := r.operation
  target := r.target
  baselineSha256 := r.expectedBaselineSha256
  replacementSha256 := r.expectedReplacementSha256
  state := .confirmed
  replayed := true

/-- `{**prepared, "state": "CONFIRMED"}`. -/
def confirmed (r : Replacement) : Journal := { r.prepared with state := .confirmed }

/-- The `try` statement: the temporary file is written, read back, and renamed over the target. -/
def install (r : Replacement) (tag : ℕ) : Task Journal := do
  ask (.writeTemporary tag r.replacement)
  let staged ← ask (.readTemporary tag)
  ensure (FileDigest.sha256 staged == r.expectedReplacementSha256) .effect
    "exact-file staged replacement verification failed"
  ask (.installTemporary tag r.target)
  let installed ← ask (.readTarget r.target)
  if FileDigest.sha256 installed == r.expectedReplacementSha256 then do
    ask (.saveJournal r.stem r.confirmed)
    return r.confirmed
  else do
    ask (.installBackup r.stem r.target)
    raise .effect "exact-file post-replacement verification failed"

/-- `if Path(temporary).exists(): Path(temporary).unlink()`, and the exception goes on. -/
def cleanUp (tag : ℕ) (exc : DriverError) : Task Journal := do
  ask (.removeTemporary tag)
  .raise exc

/-- The replacement of a target that holds its baseline. -/
def prepare (r : Replacement) : Task Journal := do
  let data ← ask (.readTarget r.target)
  ask (.writeBackup r.stem data)
  let backup ← ask (.readBackup r.stem)
  ensure (FileDigest.sha256 backup == r.expectedBaselineSha256) .effect
    "exact-file baseline backup verification failed"
  ask (.saveJournal r.stem r.prepared)
  let tag ← ask .makeTemporary
  (r.install tag).handle (cleanUp tag)

/-- The part of `replace` behind the journal. -/
def settle (r : Replacement) : Task Journal := do
  let observed ← ask (.readTarget r.target)
  if FileDigest.sha256 observed == r.expectedReplacementSha256 then do
    ask (.saveJournal r.stem r.found)
    return r.found
  else do
    ensure (FileDigest.sha256 observed == r.expectedBaselineSha256) .conflict
      "exact-file target differs from its approved baseline"
    r.prepare

/-- What a journal decides. -/
def resume (r : Replacement) : Option Journal → Task Journal
  | none => r.settle
  | some journal => do
      ensure (journal.binds r) .conflict "operation identity is already bound to another replacement"
      if journal.state = .confirmed then do
        let observed ← ask (.readTarget r.target)
        ensure (FileDigest.sha256 observed == r.expectedReplacementSha256) .conflict
          "confirmed exact-file target later changed"
        return journal
      else r.settle

/-- `ExactFileEffectDriver.replace`. -/
def replace (r : Replacement) : Task Journal := do
  ensure (isStableId r.operation) .effect "operation id is not one stable identifier"
  ensure (isSha256 r.expectedBaselineSha256) .effect "baseline digest must be SHA256"
  ensure (isSha256 r.expectedReplacementSha256) .effect "replacement digest must be SHA256"
  ensure (FileDigest.sha256 r.replacement == r.expectedReplacementSha256) .conflict
    "replacement bytes differ from their approved digest"
  let single ← ask (.examine r.target)
  ensure single .conflict "exact-file target must be one non-linked regular file"
  let journal ← ask (.readJournal r.stem)
  r.resume journal

end Replacement

end Program

end CodingOS.Effects
