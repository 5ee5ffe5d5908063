import CodingOS.Admission.Scope
import CodingOS.Python.Bytes

/-!
# The bootstrap of the installed runtime

The two verifiers of `runtime_bootstrap.py`: `verify_installed_bundle` checks the runtime pin, the
inventory and every installed file, `verify_cancel_dependency_closure` the pin, the inventory and the
files the cancellation path imports.

A path is absolute and resolved, a list of components, and the disk says what is found at each.  A link on
the way to a file is reported as a link, whatever it leads to.
-/

namespace CodingOS.Bootstrap

open CodingOS.Python
open CodingOS.Admission (posixParts)

/-! ### Files -/

abbrev Path := List String

inductive Node
  | file (content : List UInt8)
  | directory
  | link
  | special
deriving DecidableEq

abbrev Disk := Path → Option Node

/-- What the process brings: `json.loads(data.decode("utf-8"))`, where it raises nothing, and
`_same_path(Path(text), path)`. -/
class Process where
  loads : List UInt8 → Option Value
  samePath : String → Path → Bool

/-- A result of the bootstrap, or the message of a `RuntimeBootstrapError`. -/
abbrev Checked (α : Type) := Except String α

/-- `if not condition: raise RuntimeBootstrapError(message)`. -/
def ensure (condition : Bool) (message : String) : Checked Unit :=
  if condition then .ok () else .error message

def orRaise {α : Type} (value : Option α) (message : String) : Checked α :=
  match value with
  | some a => .ok a
  | none => .error message

/-- `str(path)`. -/
def pathText (path : Path) : String := "/" ++ "/".intercalate path

/-- The walk of `_direct_path` below `done`. -/
def checkParts (d : Disk) (label : String) (path : Path) : Path → Path → Checked Unit
  | _, [] => .ok ()
  | done, part :: rest =>
      match d (done ++ [part]) with
      | none => .error (label ++ " is unavailable at " ++ pathText path)
      | some .link => .error (label ++ " must not traverse a symbolic link or reparse point")
      | some _ => checkParts d label path (done ++ [part]) rest

/-- `_regular_file`, with the bytes it holds. -/
def regularFile (d : Disk) (path : Path) (label : String) : Checked (List UInt8) := do
  checkParts d label path [] path
  match d path with
  | some (.file content) => .ok content
  | _ => .error (label ++ " must be an exact regular file")

/-! ### Texts -/

def bundleProtocol : String := "CCOS-INSTALL-BUNDLE-v1"

def runtimeProtocolVersion : String := "ccos-campaign-v1"

def currentSchemaCompatibility : String := "campaign-store-v1"

def currentProbeVersion : String := "native-bind-before-turn-scoped-tools-v3"

def runtimePinFields : List String := [
  "source_commit", "bundle_digest", "install_transaction", "protocol_version",
  "schema_compatibility", "host_capability_probe_version"]

def requiredCancelFiles : List String := [
  "__init__.py", "admission.py", "cli.py", "ed25519.py", "effects.py", "evidence.py", "host.py",
  "legacy.py", "model.py", "reducer.py", "runtime_bootstrap.py", "store.py", "supervisor.py"].map
    ("scripts/agent/campaign_engine/" ++ ·)

def requiredBootstrapPaths : List String := [
  "scripts/agent/campaign_engine/cli.py",
  "scripts/agent/campaign_engine/runtime_bootstrap.py"]

/-- `SHA40.fullmatch`, `SHA256.fullmatch` and `TRANSACTION_ID.fullmatch`, by the number of digits. -/
def isHex (digits : ℕ) (text : String) : Bool := text.length == digits && isLowerHex text

section Verifiers

variable [Runtime] [FileDigest] [Process]

/-- `_relative_path`. -/
def relativePath (value : Value) : Checked String := do
  let text ← orRaise value.asText? "installed bundle contains an invalid path"
  ensure (text != "" && !text.toList.contains '\\') "installed bundle contains an invalid path"
  let parts := posixParts text.toList
  ensure (text.toList.head? != some '/' && !parts.contains ['.', '.'])
    ("installed bundle contains an unsafe path: " ++ reprText text)
  return if parts.isEmpty then "." else String.ofList (['/'].intercalate parts)

/-! ### The installed layout -/

/-- The canonical paths of an installation. -/
structure RuntimeLayout where
  installedRoot : Path
  skillsRoot : Path
  installManifest : Path
  bundleManifest : Path
deriving DecidableEq

/-- `_entry_path`. -/
def RuntimeLayout.entryPath (layout : RuntimeLayout) (relative : String) : Path :=
  let parts := (posixParts relative.toList).map String.ofList
  if 3 ≤ parts.length ∧ parts.take 2 = [".agents", "skills"] then layout.skillsRoot ++ parts.drop 2
  else layout.installedRoot ++ parts

structure BootstrapEvidence where
  sourceCommit : String
  bundleDigest : String
  installTransaction : String
  protocolVersion : String
  schemaCompatibility : String
  hostCapabilityProbeVersion : String
  bundleManifestSha256 : String
  verifiedFileCount : ℕ
deriving DecidableEq

/-- The fields of the evidence that say which runtime was verified. -/
def BootstrapEvidence.identity (e : BootstrapEvidence) : List String :=
  [e.sourceCommit, e.bundleDigest, e.installTransaction, e.protocolVersion, e.schemaCompatibility,
    e.hostCapabilityProbeVersion, e.bundleManifestSha256]

/-- The four sections of the install manifest that name the installation. -/
structure Sections where
  source : Mapping
  package : Mapping
  transaction : Mapping
  targets : Mapping

/-- `str(mapping.get(key, ""))`. -/
def textOf (m : Mapping) (key : String) : String := (m.getD key (.str "")).text

/-- The test on `runtime_pin`. -/
def readPin (manifest : Mapping) : Checked Mapping := do
  let pin ← orRaise (manifest.read "runtime_pin").asMapping? "runtime_pin must contain exactly six fields"
  ensure (runtimePinFields.all (pin.map (·.1)).contains && (pin.map (·.1)).all runtimePinFields.contains)
    "runtime_pin must contain exactly six fields"
  return pin

/-- The test on the identity sections. -/
def readSections (manifest : Mapping) : Checked Sections :=
  match (manifest.read "source").asMapping?, (manifest.read "package").asMapping?,
    (manifest.read "transaction").asMapping?, (manifest.read "targets").asMapping? with
  | some source, some package, some transaction, some targets =>
      .ok ⟨source, package, transaction, targets⟩
  | _, _, _, _ => .error "install manifest identity sections are malformed"

/-- The items of a list of which all are mappings. -/
def mappings : List Value → Option (List Mapping)
  | [] => some []
  | .mapping m :: rest => (mappings rest).map (m :: ·)
  | _ :: _ => none

/-- The test on the entries of the bundle manifest. -/
def readEntries (bundle : Mapping) : Checked (List Mapping) :=
  match bundle.read "entries" with
  | .tuple items => orRaise (mappings items) "installed bundle entries are malformed"
  | _ => .error "installed bundle entries are malformed"

/-- `_load_object`, with the bytes of the file. -/
def loadObject (d : Disk) (path : Path) (label : String) : Checked (List UInt8 × Mapping) := do
  let content ← regularFile d path label
  let value ← orRaise (Process.loads content) (label ++ " is unreadable or invalid JSON")
  let entries ← orRaise value.asMapping? (label ++ " must be a JSON object")
  return (content, entries)

/-- One round of `_aggregate_entries`. -/
def entryBytes (entry : Mapping) : Checked (List UInt8) := do
  let relative ← relativePath (entry.read "path")
  match entry.read "size", entry.read "sha256" with
  | .int size, .str digest =>
      ensure (0 ≤ size && isHex 64 digest) ("invalid installed bundle entry: " ++ relative)
      return utf8 relative ++ [0] ++ utf8 (intText size) ++ [0] ++ fromHex digest.toList
  | _, _ => .error ("invalid installed bundle entry: " ++ relative)

/-- `_aggregate_entries`. -/
def aggregateEntries (entries : List Mapping) : Checked String := do
  let sorted := entries.insertionSort fun a b => textOf a "path" ≤ textOf b "path"
  let parts ← sorted.mapM entryBytes
  return FileDigest.sha256 (utf8 bundleProtocol ++ [0] ++ parts.flatten)

/-- Whether a file has the size and the digest of its entry. -/
def fits (entry : Mapping) (content : List UInt8) : Bool :=
  (Value.int content.length).eq (entry.read "size")
    && (Value.str (FileDigest.sha256 content)).eq (entry.read "sha256")

/-- The check of one installed file. -/
def checkFile (layout : RuntimeLayout) (d : Disk) (label message : String) (entry : Mapping)
    (relative : String) : Checked Unit := do
  let content ← regularFile d (layout.entryPath relative) (label ++ relative)
  ensure (fits entry content) (message ++ relative)

/-- `verify_installed_bundle`. -/
def verifyInstalledBundle (layout : RuntimeLayout) (d : Disk) : Checked BootstrapEvidence := do
  let (_, manifest) ← loadObject d layout.installManifest "install manifest"
  let (bundleBytes, bundle) ← loadObject d layout.bundleManifest "installed bundle manifest"
  let pin ← readPin manifest
  let sections ← readSections manifest
  let sourceCommit := textOf pin "source_commit"
  let bundleDigest := textOf pin "bundle_digest"
  let installTransaction := textOf pin "install_transaction"
  let protocolVersion := textOf pin "protocol_version"
  let schemaCompatibility := textOf pin "schema_compatibility"
  let hostProbe := textOf pin "host_capability_probe_version"
  ensure (isHex 40 sourceCommit) "runtime_pin.source_commit is invalid"
  ensure (isHex 64 bundleDigest) "runtime_pin.bundle_digest is invalid"
  ensure (isHex 32 installTransaction) "runtime_pin.install_transaction is invalid"
  ensure (protocolVersion == runtimeProtocolVersion) "runtime_pin.protocol_version is incompatible"
  ensure (schemaCompatibility == currentSchemaCompatibility)
    "runtime_pin.schema_compatibility is incompatible"
  ensure (hostProbe == currentProbeVersion)
    "runtime_pin.host_capability_probe_version is incompatible"
  ensure ((sections.source.read "git_commit").eq (.str sourceCommit)
      && (sections.package.read "bundle_sha256").eq (.str bundleDigest)
      && (sections.transaction.read "id").eq (.str installTransaction))
    "runtime pin conflicts with source, package, or transaction record"
  ensure (Process.samePath (textOf sections.targets "support_root") layout.installedRoot)
    "install manifest support_root is not canonical"
  ensure (Process.samePath (textOf sections.targets "skills_root") layout.skillsRoot)
    "install manifest skills_root is not canonical"
  ensure ((bundle.read "protocol").eq (.str bundleProtocol))
    "installed bundle protocol is incompatible"
  let rawEntries ← readEntries bundle
  let paths ← rawEntries.mapM fun entry => relativePath (entry.read "path")
  ensure ((paths.map casefold).dedup.length == paths.length)
    "installed bundle contains duplicate or colliding paths"
  ensure (requiredBootstrapPaths.all paths.contains)
    "installed bundle inventory omits the mandatory runtime bootstrap"
  let aggregate ← aggregateEntries rawEntries
  ensure ((bundle.read "aggregate_sha256").eq (.str aggregate) && bundleDigest == aggregate)
    "installed bundle aggregate differs from its runtime pin"
  (rawEntries.zip paths).forM fun p =>
    checkFile layout d "installed file " "installed bundle file differs from its pin: " p.1 p.2
  let bundleManifestSha256 := FileDigest.sha256 bundleBytes
  ensure ((sections.source.read "bundle_manifest_sha256").eq (.str bundleManifestSha256))
    "installed bundle manifest differs from its source pin"
  return {
    sourceCommit
    bundleDigest
    installTransaction
    protocolVersion
    schemaCompatibility
    hostCapabilityProbeVersion := hostProbe
    bundleManifestSha256
    verifiedFileCount := rawEntries.length }

/-- `verify_cancel_dependency_closure`. -/
def verifyCancelDependencyClosure (layout : RuntimeLayout) (d : Disk) : Checked BootstrapEvidence := do
  let (_, manifest) ← loadObject d layout.installManifest "install manifest"
  let (bundleBytes, bundle) ← loadObject d layout.bundleManifest "installed bundle manifest"
  let pin ← readPin manifest
  let sections ← readSections manifest
  ensure ((bundle.read "protocol").eq (.str bundleProtocol))
    "installed bundle protocol is incompatible"
  let entries ← readEntries bundle
  let paths ← entries.mapM fun entry => relativePath (entry.read "path")
  ensure ((paths.map casefold).dedup.length == paths.length)
    "installed bundle contains duplicate or colliding paths"
  ensure (requiredCancelFiles.all paths.contains)
    "installed bundle omits the pinned cancellation closure"
  let aggregate ← aggregateEntries entries
  let sourceCommit := textOf pin "source_commit"
  let bundleDigest := textOf pin "bundle_digest"
  let installTransaction := textOf pin "install_transaction"
  let protocolVersion := textOf pin "protocol_version"
  let schemaCompatibility := textOf pin "schema_compatibility"
  let hostProbe := textOf pin "host_capability_probe_version"
  let bundleManifestSha256 := FileDigest.sha256 bundleBytes
  ensure (isHex 40 sourceCommit && isHex 64 bundleDigest && isHex 32 installTransaction
      && protocolVersion == runtimeProtocolVersion
      && schemaCompatibility == currentSchemaCompatibility
      && hostProbe == currentProbeVersion
      && (bundle.read "aggregate_sha256").eq (.str aggregate)
      && bundleDigest == aggregate
      && (sections.source.read "git_commit").eq (.str sourceCommit)
      && (sections.package.read "bundle_sha256").eq (.str bundleDigest)
      && (sections.transaction.read "id").eq (.str installTransaction)
      && Process.samePath (textOf sections.targets "support_root") layout.installedRoot
      && Process.samePath (textOf sections.targets "skills_root") layout.skillsRoot
      && (sections.source.read "bundle_manifest_sha256").eq (.str bundleManifestSha256))
    "pinned cancellation runtime identity is invalid"
  let entriesByPath := paths.zip entries
  (requiredCancelFiles.mergeSort).forM fun relative => do
    let entry ← orRaise (entriesByPath.lookup relative) relative
    checkFile layout d "cancellation file " "pinned cancellation file differs from its pin: " entry
      relative
  return {
    sourceCommit
    bundleDigest
    installTransaction
    protocolVersion
    schemaCompatibility
    hostCapabilityProbeVersion := hostProbe
    bundleManifestSha256
    verifiedFileCount := requiredCancelFiles.length }

end Verifiers

end CodingOS.Bootstrap
