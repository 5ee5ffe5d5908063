import CodingOS.Bootstrap.Verification
import CodingOS.Python.SampleProcess
import CodingOS.Systems.Result

/-!
# Whoever may run may stop

The two verifiers read the same manifests and ask the same of them.  An accepted installation is accepted
for STOP when its inventory lists the cancellation closure: the full verification asks for two of those
files only.  Such an installation stays accepted for STOP whatever happens to the other files, and a
change of a file of the closure stops both.
-/

namespace CodingOS.Bootstrap

open CodingOS.Python Systems Systems.Result

/-! ### Results -/

theorem ensure_eq_ok {condition : Bool} {message : String} {u : Unit} :
    ensure condition message = .ok u ↔ condition = true := by
  cases condition <;> simp [ensure]

theorem orRaise_eq_ok {α : Type} {value : Option α} {message : String} {a : α} :
    orRaise value message = .ok a ↔ value = some a := by
  cases value <;> simp [orRaise]

/-! ### Files -/

variable {d d' : Disk} {path : Path} {content : List UInt8}

/-- A regular file, and no link on the way to it. -/
structure IsFile (d : Disk) (path : Path) (content : List UInt8) : Prop where
  direct : ∀ p, p ≠ [] → p <+: path → ∃ n, d p = some n ∧ n ≠ .link
  file : d path = some (.file content)

/-- Nothing changed at a path and above it. -/
def SameAt (d d' : Disk) (path : Path) : Prop := ∀ p, p <+: path → d' p = d p

theorem checkParts_eq_ok {label : String} {done rest : Path} :
    checkParts d label path done rest = .ok () ↔
      ∀ p, p ≠ [] → p <+: rest → ∃ n, d (done ++ p) = some n ∧ n ≠ .link := by
  induction rest generalizing done with
  | nil =>
      refine ⟨fun _ p hne hp => absurd (List.prefix_nil.mp hp) hne, fun _ => rfl⟩
  | cons part rest ih =>
      have hcons : (∀ p, p ≠ [] → p <+: part :: rest → ∃ n, d (done ++ p) = some n ∧ n ≠ .link) ↔
          (∃ n, d (done ++ [part]) = some n ∧ n ≠ .link) ∧
            ∀ p, p ≠ [] → p <+: rest → ∃ n, d (done ++ [part] ++ p) = some n ∧ n ≠ .link := by
        constructor
        · intro h
          refine ⟨h [part] (by simp) (by simp), fun p hne hp => ?_⟩
          rw [← List.append_cons]
          exact h (part :: p) (by simp) (List.cons_prefix_cons.mpr ⟨rfl, hp⟩)
        · rintro ⟨hfirst, hrest⟩ p hne hp
          cases p with
          | nil => exact absurd rfl hne
          | cons q p =>
              obtain ⟨rfl, htail⟩ := List.cons_prefix_cons.mp hp
              by_cases hnil : p = []
              · rw [hnil]
                exact hfirst
              · rw [List.append_cons]
                exact hrest p hnil htail
      rw [checkParts, hcons, ← ih]
      cases d (done ++ [part]) with
      | none => simp
      | some n => cases n <;> simp

theorem regularFile_eq_ok {label : String} :
    regularFile d path label = .ok content ↔ IsFile d path content := by
  rw [regularFile, bind_eq_ok]
  constructor
  · rintro ⟨u, hparts, hfile⟩
    refine ⟨checkParts_eq_ok.mp hparts, ?_⟩
    split at hfile
    · next c hc =>
        obtain rfl := Except.ok.inj hfile
        exact hc
    · cases hfile
  · rintro ⟨hdirect, hfile⟩
    refine ⟨(), checkParts_eq_ok.mpr hdirect, ?_⟩
    rw [hfile]

theorem SameAt.isFile (h : SameAt d d' path) (hfile : IsFile d path content) : IsFile d' path content := by
  refine ⟨fun p hne hp => ?_, (h path List.prefix_rfl).trans hfile.file⟩
  rw [h p hp]
  exact hfile.direct p hne hp

theorem SameAt.symm (h : SameAt d d' path) : SameAt d' d path := fun p hp => (h p hp).symm

theorem IsFile.content_eq {content' : List UInt8} (h : IsFile d path content)
    (h' : IsFile d path content') : content = content' := by
  have hsame := h.file.symm.trans h'.file
  rw [Option.some.injEq, Node.file.injEq] at hsame
  exact hsame

section Verifiers

variable [Runtime] [FileDigest] [Process]

omit [Runtime] [FileDigest] in
theorem SameAt.loadObject {label : String} {value : List UInt8 × Mapping} (h : SameAt d d' path)
    (hload : loadObject d path label = .ok value) : Bootstrap.loadObject d' path label = .ok value := by
  rw [Bootstrap.loadObject, bind_eq_ok] at hload ⊢
  obtain ⟨content, hfile, hrest⟩ := hload
  exact ⟨content, regularFile_eq_ok.mpr (h.isFile (regularFile_eq_ok.mp hfile)), hrest⟩

/-! ### What both verifiers ask of the manifests -/

/-- What is read of the two manifests. -/
structure Loaded where
  manifestBytes : List UInt8
  manifest : Mapping
  bundleBytes : List UInt8
  bundle : Mapping
  pin : Mapping
  sections : Sections
  entries : List Mapping
  paths : List String
  aggregate : String

variable {layout : RuntimeLayout} {m m' : Loaded} {ev : BootstrapEvidence}

structure Loaded.Reads (m : Loaded) (layout : RuntimeLayout) (d : Disk) : Prop where
  manifest : loadObject d layout.installManifest "install manifest" = .ok (m.manifestBytes, m.manifest)
  bundle : loadObject d layout.bundleManifest "installed bundle manifest" = .ok (m.bundleBytes, m.bundle)
  pin : readPin m.manifest = .ok m.pin
  sections : readSections m.manifest = .ok m.sections
  entries : readEntries m.bundle = .ok m.entries
  paths : (m.entries.mapM fun entry => relativePath (entry.read "path")) = .ok m.paths
  aggregate : aggregateEntries m.entries = .ok m.aggregate

/-- The pin agrees with the manifests and with the engine. -/
structure Loaded.Pinned (m : Loaded) (layout : RuntimeLayout) : Prop where
  sourceCommit : isHex 40 (textOf m.pin "source_commit") = true
  bundleDigest : isHex 64 (textOf m.pin "bundle_digest") = true
  installTransaction : isHex 32 (textOf m.pin "install_transaction") = true
  protocolVersion : (textOf m.pin "protocol_version" == runtimeProtocolVersion) = true
  schemaCompatibility : (textOf m.pin "schema_compatibility" == currentSchemaCompatibility) = true
  probeVersion : (textOf m.pin "host_capability_probe_version" == currentProbeVersion) = true
  commit : (m.sections.source.read "git_commit").eq (.str (textOf m.pin "source_commit")) = true
  package : (m.sections.package.read "bundle_sha256").eq (.str (textOf m.pin "bundle_digest")) = true
  transaction : (m.sections.transaction.read "id").eq (.str (textOf m.pin "install_transaction")) = true
  supportRoot : Process.samePath (textOf m.sections.targets "support_root") layout.installedRoot = true
  skillsRoot : Process.samePath (textOf m.sections.targets "skills_root") layout.skillsRoot = true
  protocol : (m.bundle.read "protocol").eq (.str bundleProtocol) = true
  distinct : ((m.paths.map casefold).dedup.length == m.paths.length) = true
  aggregate : (m.bundle.read "aggregate_sha256").eq (.str m.aggregate) = true
  digest : (textOf m.pin "bundle_digest" == m.aggregate) = true
  manifest : (m.sections.source.read "bundle_manifest_sha256").eq
    (.str (FileDigest.sha256 m.bundleBytes)) = true

def Loaded.evidence (m : Loaded) (count : ℕ) : BootstrapEvidence where
  sourceCommit := textOf m.pin "source_commit"
  bundleDigest := textOf m.pin "bundle_digest"
  installTransaction := textOf m.pin "install_transaction"
  protocolVersion := textOf m.pin "protocol_version"
  schemaCompatibility := textOf m.pin "schema_compatibility"
  hostCapabilityProbeVersion := textOf m.pin "host_capability_probe_version"
  bundleManifestSha256 := FileDigest.sha256 m.bundleBytes
  verifiedFileCount := count

/-- An installed file is that of its entry. -/
def Installed (layout : RuntimeLayout) (d : Disk) (entry : Mapping) (relative : String) : Prop :=
  ∃ content, IsFile d (layout.entryPath relative) content ∧ fits entry content = true

omit [Runtime] [Process] in
theorem checkFile_eq_ok {label message relative : String} {entry : Mapping} {u : Unit} :
    checkFile layout d label message entry relative = .ok u ↔ Installed layout d entry relative := by
  rw [checkFile, bind_eq_ok]
  refine exists_congr fun content => ?_
  rw [regularFile_eq_ok, ensure_eq_ok]

/-- The manifests are read in one way. -/
theorem Loaded.Reads.unique (h : m.Reads layout d) (h' : m'.Reads layout d) : m = m' := by
  obtain ⟨h₁, h₂, h₃, h₄, h₅, h₆, h₇⟩ := h
  obtain ⟨h₁', h₂', h₃', h₄', h₅', h₆', h₇'⟩ := h'
  cases m
  cases m'
  dsimp only at *
  rw [h₁, Except.ok.injEq, Prod.mk.injEq] at h₁'
  rw [h₂, Except.ok.injEq, Prod.mk.injEq] at h₂'
  obtain ⟨rfl, rfl⟩ := h₁'
  obtain ⟨rfl, rfl⟩ := h₂'
  rw [h₃, Except.ok.injEq] at h₃'
  rw [h₄, Except.ok.injEq] at h₄'
  rw [h₅, Except.ok.injEq] at h₅'
  subst h₃' h₄' h₅'
  rw [h₆, Except.ok.injEq] at h₆'
  rw [h₇, Except.ok.injEq] at h₇'
  rw [h₆', h₇']

theorem Loaded.Reads.of_same (h : m.Reads layout d) (hmanifest : SameAt d d' layout.installManifest)
    (hbundle : SameAt d d' layout.bundleManifest) : m.Reads layout d' :=
  { h with
    manifest := hmanifest.loadObject h.manifest
    bundle := hbundle.loadObject h.bundle }

/-- **What the full verification accepts.** -/
theorem verifyInstalledBundle_eq_ok : verifyInstalledBundle layout d = .ok ev ↔
    ∃ m : Loaded, m.Reads layout d ∧ m.Pinned layout ∧
      requiredBootstrapPaths.all m.paths.contains = true ∧
      (∀ p ∈ m.entries.zip m.paths, Installed layout d p.1 p.2) ∧ ev = m.evidence m.entries.length := by
  simp only [verifyInstalledBundle, bind_eq_ok, ensure_eq_ok, pure_eq_ok, forM_eq_ok, checkFile_eq_ok,
    Bool.and_eq_true, exists_const]
  constructor
  · rintro ⟨⟨mb, mf⟩, h₁, ⟨bb, bf⟩, h₂, pin, h₃, sections, h₄, c₁, c₂, c₃, c₄, c₅, c₆, ⟨⟨c₇, c₈⟩, c₉⟩, c₁₀, c₁₁,
      c₁₂, entries, h₅, paths, h₆, c₁₃, c₁₄, aggregate, h₇, ⟨c₁₅, c₁₆⟩, c₁₇, c₁₈, hev⟩
    subst hev
    exact ⟨⟨mb, mf, bb, bf, pin, sections, entries, paths, aggregate⟩, ⟨h₁, h₂, h₃, h₄, h₅, h₆, h₇⟩,
      ⟨c₁, c₂, c₃, c₄, c₅, c₆, c₇, c₈, c₉, c₁₀, c₁₁, c₁₂, c₁₃, c₁₅, c₁₆, c₁₈⟩, c₁₄, c₁₇, rfl⟩
  · rintro ⟨m, h, c, hrequired, hfiles, rfl⟩
    exact ⟨_, h.manifest, _, h.bundle, _, h.pin, _, h.sections, c.sourceCommit, c.bundleDigest,
      c.installTransaction, c.protocolVersion, c.schemaCompatibility, c.probeVersion,
      ⟨⟨c.commit, c.package⟩, c.transaction⟩, c.supportRoot, c.skillsRoot, c.protocol,
      _, h.entries, _, h.paths, c.distinct, hrequired, _, h.aggregate, ⟨c.aggregate, c.digest⟩, hfiles,
      c.manifest, rfl⟩

/-- **What the verification for STOP accepts.** -/
theorem verifyCancelDependencyClosure_eq_ok : verifyCancelDependencyClosure layout d = .ok ev ↔
    ∃ m : Loaded, m.Reads layout d ∧ m.Pinned layout ∧
      requiredCancelFiles.all m.paths.contains = true ∧
      (∀ relative ∈ requiredCancelFiles, ∃ entry, (m.paths.zip m.entries).lookup relative = some entry ∧
        Installed layout d entry relative) ∧ ev = m.evidence requiredCancelFiles.length := by
  simp only [verifyCancelDependencyClosure, bind_eq_ok, ensure_eq_ok, pure_eq_ok, forM_eq_ok,
    orRaise_eq_ok, checkFile_eq_ok, Bool.and_eq_true, List.mem_mergeSort, exists_const]
  constructor
  · rintro ⟨⟨mb, mf⟩, h₁, ⟨bb, bf⟩, h₂, pin, h₃, sections, h₄, c₁, entries, h₅, paths, h₆, c₂, c₃, aggregate, h₇,
      ⟨⟨⟨⟨⟨⟨⟨⟨⟨⟨⟨⟨⟨c₄, c₅⟩, c₆⟩, c₇⟩, c₈⟩, c₉⟩, c₁₀⟩, c₁₁⟩, c₁₂⟩, c₁₃⟩, c₁₄⟩, c₁₅⟩, c₁₆⟩, c₁₇⟩, c₁₈, hev⟩
    subst hev
    exact ⟨⟨mb, mf, bb, bf, pin, sections, entries, paths, aggregate⟩, ⟨h₁, h₂, h₃, h₄, h₅, h₆, h₇⟩,
      ⟨c₄, c₅, c₆, c₇, c₈, c₉, c₁₂, c₁₃, c₁₄, c₁₅, c₁₆, c₁, c₂, c₁₀, c₁₁, c₁₇⟩, c₃, c₁₈, rfl⟩
  · rintro ⟨m, h, c, hrequired, hfiles, rfl⟩
    exact ⟨_, h.manifest, _, h.bundle, _, h.pin, _, h.sections, c.protocol, _, h.entries, _, h.paths,
      c.distinct, hrequired, _, h.aggregate, ⟨⟨⟨⟨⟨⟨⟨⟨⟨⟨⟨⟨⟨c.sourceCommit, c.bundleDigest⟩,
      c.installTransaction⟩, c.protocolVersion⟩, c.schemaCompatibility⟩, c.probeVersion⟩, c.aggregate⟩,
      c.digest⟩, c.commit⟩, c.package⟩, c.transaction⟩, c.supportRoot⟩, c.skillsRoot⟩, c.manifest⟩,
      hfiles, rfl⟩

/-! ### The cancellation closure -/

/-- `bundle["entries"]`, by their paths. -/
def inventory (layout : RuntimeLayout) (d : Disk) : Checked (List String) := do
  let (_, bundle) ← loadObject d layout.bundleManifest "installed bundle manifest"
  let entries ← readEntries bundle
  entries.mapM fun entry => relativePath (entry.read "path")

/-- The inventory lists the files the cancellation path imports. -/
def ListsClosure (layout : RuntimeLayout) (d : Disk) : Prop :=
  ∃ paths, inventory layout d = .ok paths ∧ ∀ relative ∈ requiredCancelFiles, relative ∈ paths

/-- A file of the disk holds other bytes now, or is no regular file. -/
def Changed (d d' : Disk) (path : Path) : Prop := ∀ content, IsFile d path content → ¬ IsFile d' path content

omit [Runtime] [FileDigest] [Process] in
theorem lookup_zip {paths : List String} {entries : List Mapping} {relative : String}
    (hlength : paths.length = entries.length) (h : relative ∈ paths) :
    ∃ entry, (paths.zip entries).lookup relative = some entry ∧ (entry, relative) ∈ entries.zip paths := by
  induction paths generalizing entries with
  | nil => cases h
  | cons path paths ih =>
      cases entries with
      | nil => cases hlength
      | cons entry entries =>
          rw [List.zip_cons_cons, List.zip_cons_cons, List.lookup_cons]
          by_cases hpath : relative = path
          · exact ⟨entry, by simp [hpath], by simp [hpath]⟩
          · obtain ⟨found, hfound, hmem⟩ := ih (Nat.succ.inj hlength)
              ((List.mem_cons.mp h).resolve_left hpath)
            rw [beq_false_of_ne hpath]
            exact ⟨found, hfound, List.mem_cons_of_mem _ hmem⟩

theorem Loaded.Reads.inventory_eq (h : m.Reads layout d) : inventory layout d = .ok m.paths := by
  rw [inventory, bind_eq_ok]
  exact ⟨_, h.bundle, bind_eq_ok.mpr ⟨_, h.entries, h.paths⟩⟩

theorem Loaded.Reads.lists (h : m.Reads layout d) :
    ListsClosure layout d ↔ requiredCancelFiles.all m.paths.contains = true := by
  rw [ListsClosure, List.all_eq_true]
  constructor
  · rintro ⟨paths, hpaths, hlists⟩ relative hrelative
    obtain rfl := Except.ok.inj (hpaths.symm.trans h.inventory_eq)
    exact List.contains_iff_mem.mpr (hlists relative hrelative)
  · intro hall
    exact ⟨m.paths, h.inventory_eq, fun relative hrelative =>
      List.contains_iff_mem.mp (hall relative hrelative)⟩

/-- Every file of the closure has an entry under its path. -/
theorem Loaded.Reads.entry {relative : String} (h : m.Reads layout d) (hlists : ListsClosure layout d)
    (hrelative : relative ∈ requiredCancelFiles) :
    ∃ entry, (m.paths.zip m.entries).lookup relative = some entry ∧
      (entry, relative) ∈ m.entries.zip m.paths :=
  lookup_zip (mapM_length h.paths) (List.contains_iff_mem.mp
    (List.all_eq_true.mp (h.lists.mp hlists) relative hrelative))

omit [Runtime] [Process] in
/-- An installed file whose content changed is not that of its entry. -/
theorem Installed.not_of_changed {entry : Mapping} {relative : String}
    (h : Installed layout d entry relative) (hchanged : Changed d d' (layout.entryPath relative))
    (hdigest : ∀ content content', IsFile d (layout.entryPath relative) content →
      IsFile d' (layout.entryPath relative) content' →
      FileDigest.sha256 content = FileDigest.sha256 content' → content = content') :
    ¬ Installed layout d' entry relative := by
  obtain ⟨content, hfile, hfits⟩ := h
  rintro ⟨content', hfile', hfits'⟩
  rw [fits, Bool.and_eq_true, Value.str_eq] at hfits hfits'
  have hsame : FileDigest.sha256 content = FileDigest.sha256 content' :=
    Value.str.inj (hfits.2.trans hfits'.2.symm)
  obtain rfl := hdigest content content' hfile hfile' hsame
  exact hchanged content hfile hfile'

/-- **Whoever may run may stop.**  An accepted installation is accepted for STOP, as the same runtime,
exactly when its inventory lists the cancellation closure.  Then it stays accepted for STOP on every disk
that has the manifests and the closure as they were, and on a disk that has the manifests and another
file of the closure both verifiers refuse it. -/
theorem run_and_stop (h : verifyInstalledBundle layout d = .ok ev) :
    ((∃ ev', verifyCancelDependencyClosure layout d = .ok ev' ∧ ev'.identity = ev.identity) ↔
      ListsClosure layout d) ∧
    (ListsClosure layout d → ∀ d', SameAt d d' layout.installManifest → SameAt d d' layout.bundleManifest →
      (∀ relative ∈ requiredCancelFiles, SameAt d d' (layout.entryPath relative)) →
      ∃ ev', verifyCancelDependencyClosure layout d' = .ok ev' ∧ ev'.identity = ev.identity) ∧
    (ListsClosure layout d → ∀ d', SameAt d d' layout.installManifest → SameAt d d' layout.bundleManifest →
      ∀ relative ∈ requiredCancelFiles, Changed d d' (layout.entryPath relative) →
      (∀ content content', IsFile d (layout.entryPath relative) content →
        IsFile d' (layout.entryPath relative) content' →
        FileDigest.sha256 content = FileDigest.sha256 content' → content = content') →
      ∀ ev', verifyInstalledBundle layout d' ≠ .ok ev' ∧
        verifyCancelDependencyClosure layout d' ≠ .ok ev') := by
  obtain ⟨m, hreads, hpinned, -, hfiles, rfl⟩ := verifyInstalledBundle_eq_ok.mp h
  have hstays : ListsClosure layout d → ∀ d', SameAt d d' layout.installManifest →
      SameAt d d' layout.bundleManifest →
      (∀ relative ∈ requiredCancelFiles, SameAt d d' (layout.entryPath relative)) →
      ∃ ev', verifyCancelDependencyClosure layout d' = .ok ev' ∧
        ev'.identity = (m.evidence m.entries.length).identity := by
    intro hlists d' hmanifest hbundle hclosure
    refine ⟨_, verifyCancelDependencyClosure_eq_ok.mpr ⟨m, hreads.of_same hmanifest hbundle, hpinned,
      hreads.lists.mp hlists, fun relative hrelative => ?_, rfl⟩, rfl⟩
    obtain ⟨entry, hlookup, hmem⟩ := hreads.entry hlists hrelative
    obtain ⟨content, hfile, hfits⟩ := hfiles _ hmem
    exact ⟨entry, hlookup, content, (hclosure relative hrelative).isFile hfile, hfits⟩
  refine ⟨⟨?_, fun hlists => ?_⟩, hstays, ?_⟩
  · rintro ⟨ev', hcancel, -⟩
    obtain ⟨m', hreads', -, hrequired, -⟩ := verifyCancelDependencyClosure_eq_ok.mp hcancel
    exact hreads'.lists.mpr hrequired
  · exact hstays hlists d (fun _ _ => rfl) (fun _ _ => rfl) fun _ _ _ _ => rfl
  · intro hlists d' hmanifest hbundle relative hrelative hchanged hdigest ev'
    have hreads' := hreads.of_same hmanifest hbundle
    obtain ⟨entry, hlookup, hmem⟩ := hreads.entry hlists hrelative
    have hnot := (hfiles _ hmem).not_of_changed hchanged hdigest
    constructor
    · intro haccepts
      obtain ⟨m', hm', -, -, hfiles', -⟩ := verifyInstalledBundle_eq_ok.mp haccepts
      obtain rfl := hm'.unique hreads'
      exact hnot (hfiles' _ hmem)
    · intro haccepts
      obtain ⟨m', hm', -, -, hfiles', -⟩ := verifyCancelDependencyClosure_eq_ok.mp haccepts
      obtain rfl := hm'.unique hreads'
      obtain ⟨entry', hlookup', hinstalled⟩ := hfiles' relative hrelative
      obtain rfl := Option.some.inj (hlookup.symm.trans hlookup')
      exact hnot hinstalled

end Verifiers

/-! ### Two installations -/

namespace Sample

open scoped CodingOS.Python.SampleProcess

def digest : String := "bbbbbbbbbbbbbbbbbbbbbbbbbbbbbbbbbbbbbbbbbbbbbbbbbbbbbbbbbbbbbbbb"

def commit : String := String.ofList (List.replicate 40 'c')

def transaction : String := String.ofList (List.replicate 32 'd')

def manifest : Value := .mapping [
  ("runtime_pin", .mapping [
    ("source_commit", .str commit),
    ("bundle_digest", .str digest),
    ("install_transaction", .str transaction),
    ("protocol_version", .str runtimeProtocolVersion),
    ("schema_compatibility", .str currentSchemaCompatibility),
    ("host_capability_probe_version", .str currentProbeVersion)]),
  ("source", .mapping [("git_commit", .str commit), ("bundle_manifest_sha256", .str digest)]),
  ("package", .mapping [("bundle_sha256", .str digest)]),
  ("transaction", .mapping [("id", .str transaction)]),
  ("targets", .mapping [
    ("support_root", .str "/home/.codex/coding-os"), ("skills_root", .str "/home/.codex/skills")])]

/-- A bundle of one-byte files. -/
def bundle (paths : List String) : Value := .mapping [
  ("protocol", .str bundleProtocol),
  ("entries", .tuple (paths.map fun path =>
    .mapping [("path", .str path), ("size", .int 1), ("sha256", .str digest)])),
  ("aggregate_sha256", .str digest)]

scoped instance fileDigest : FileDigest where
  sha256 _ := digest

scoped instance process : Process where
  loads
    | [1] => some manifest
    | [2] => some (bundle requiredBootstrapPaths)
    | [3] => some (bundle requiredCancelFiles)
    | _ => none
  samePath text path := text == pathText path

def layout : RuntimeLayout where
  installedRoot := ["home", ".codex", "coding-os"]
  skillsRoot := ["home", ".codex", "skills"]
  installManifest := ["home", ".codex", "coding-os", "install-manifest.json"]
  bundleManifest := ["home", ".codex", "coding-os", "install-bundle.manifest.json"]

/-- The engine's files, with one of the two bundle manifests. -/
def disk (bundle : UInt8) : Disk := fun path =>
  match path.length with
  | 4 => some (.file [if path.getLast? = some "install-manifest.json" then 1 else bundle])
  | 7 => some (.file [0])
  | _ => some .directory

end Sample

section Runs

open Sample
open scoped CodingOS.Python.SampleProcess

/-- The texts of the sample: the pin is well formed, the files of the closure have canonical paths in lower
case, seven components below the root, the bootstrap is a part of it, and the roots are the ones named. -/
theorem sample_texts :
    (isHex 40 commit = true ∧ isHex 64 digest = true ∧ isHex 32 transaction = true) ∧
    (∀ path ∈ requiredCancelFiles, (relativePath (.str path)).toOption = some path ∧
      casefold path = path ∧ (layout.entryPath path).length = 7) ∧
    (requiredBootstrapPaths.Sublist requiredCancelFiles ∧
      requiredCancelFiles.all requiredBootstrapPaths.contains = false) ∧
    pathText layout.installedRoot = "/home/.codex/coding-os" ∧
    pathText layout.skillsRoot = "/home/.codex/skills" := by
  refine ⟨⟨?_, ?_, ?_⟩, ?_, ⟨?_, ?_⟩, ?_, ?_⟩ <;> decide +kernel

theorem closure_paths {path : String} (h : path ∈ requiredCancelFiles) :
    (relativePath (.str path)).toOption = some path ∧ casefold path = path ∧
      (layout.entryPath path).length = 7 := sample_texts.2.1 path h

theorem bootstrap_sublist : requiredBootstrapPaths.Sublist requiredCancelFiles := sample_texts.2.2.1.1

theorem closure_nodup : requiredCancelFiles.Nodup := by
  rw [requiredCancelFiles]
  refine List.Nodup.map (fun a b h => ?_) (by simp)
  simpa using h

/-- The entry of a file in the bundle manifest. -/
def Sample.entry (path : String) : Mapping :=
  [("path", .str path), ("size", .int 1), ("sha256", .str digest)]

/-- What the manifests of an installation with some files of the closure read as. -/
def Sample.loaded (byte : UInt8) (paths : List String) : Loaded where
  manifestBytes := [1]
  manifest := manifest.asMapping?.getD []
  bundleBytes := [byte]
  bundle := (bundle paths).asMapping?.getD []
  pin := ((manifest.asMapping?.getD []).read "runtime_pin").asMapping?.getD []
  sections := ⟨[("git_commit", .str commit), ("bundle_manifest_sha256", .str digest)],
    [("bundle_sha256", .str digest)], [("id", .str transaction)],
    [("support_root", .str "/home/.codex/coding-os"), ("skills_root", .str "/home/.codex/skills")]⟩
  entries := paths.map entry
  paths
  aggregate := digest

theorem mappings_entries (paths : List String) :
    mappings (paths.map fun path => .mapping (entry path)) = some (paths.map entry) := by
  induction paths with
  | nil => rfl
  | cons path paths ih =>
      rw [List.map_cons, mappings, ih]
      rfl

/-- The disk of the sample has no links. -/
theorem disk_isFile {byte : UInt8} {path : Path} {content : List UInt8}
    (h : disk byte path = some (.file content)) : IsFile (disk byte) path content := by
  refine ⟨fun p _ _ => ?_, h⟩
  unfold disk
  split <;> exact ⟨_, rfl, by simp⟩

theorem entry_bytes {path : String} (h : relativePath (.str path) = .ok path) :
    ∃ bytes, entryBytes (entry path) = .ok bytes := by
  simp only [entryBytes, entry, Mapping.read, Mapping.getD, Mapping.get?_cons]
  simp [h, sample_texts.1.2.1, ensure]
  exact ⟨_, rfl⟩

/-- Computations that all succeed succeed together. -/
theorem exists_mapM {ε α β : Type} {f : α → Except ε β} {xs : List α} (h : ∀ x ∈ xs, ∃ y, f x = .ok y) :
    ∃ ys, xs.mapM f = .ok ys := by
  induction xs with
  | nil => exact ⟨[], rfl⟩
  | cons x xs ih =>
      obtain ⟨⟨y, hy⟩, hrest⟩ := List.forall_mem_cons.mp h
      obtain ⟨ys, hys⟩ := ih hrest
      rw [List.mapM_cons]
      exact ⟨y :: ys, bind_eq_ok.mpr ⟨y, hy, bind_eq_ok.mpr ⟨ys, hys, rfl⟩⟩⟩

/-- Some files of the closure are read back from their bundle manifest. -/
theorem loaded_reads {byte : UInt8} {paths : List String} (hpaths : paths.Sublist requiredCancelFiles)
    (hbundle : Process.loads [byte] = some (bundle paths)) :
    (loaded byte paths).Reads layout (disk byte) where
  manifest := by
    have hfile : IsFile (disk byte) layout.installManifest [1] := disk_isFile (by simp [disk, layout])
    rw [loadObject, bind_eq_ok]
    exact ⟨[1], regularFile_eq_ok.mpr hfile, rfl⟩
  bundle := by
    have hfile : IsFile (disk byte) layout.bundleManifest [byte] := disk_isFile (by simp [disk, layout])
    rw [loadObject, bind_eq_ok]
    refine ⟨[byte], regularFile_eq_ok.mpr hfile, ?_⟩
    rw [hbundle]
    rfl
  pin := by
    rw [readPin, bind_eq_ok]
    refine ⟨(loaded byte paths).pin, rfl, bind_eq_ok.mpr ⟨(), ensure_eq_ok.mpr ?_, rfl⟩⟩
    simp [loaded, manifest, runtimePinFields, Mapping.read, Mapping.getD, Mapping.get?_cons, Value.asMapping?]
  sections := by
    simp [readSections, loaded, manifest, Mapping.read, Mapping.getD, Mapping.get?_cons, Value.asMapping?]
  entries := by
    rw [readEntries]
    exact orRaise_eq_ok.mpr (mappings_entries paths)
  paths := by
    have hrelative : ∀ path ∈ paths, relativePath (.str path) = .ok path := fun path hpath =>
      eq_ok_of_toOption (closure_paths (hpaths.subset hpath)).1
    show (paths.map entry).mapM (fun e => relativePath (Mapping.read e "path")) = .ok paths
    clear hbundle hpaths
    induction paths with
    | nil => rfl
    | cons path paths ih =>
        obtain ⟨hpath, hrest⟩ := List.forall_mem_cons.mp hrelative
        rw [List.map_cons, List.mapM_cons, bind_eq_ok]
        refine ⟨path, hpath, ?_⟩
        rw [bind_eq_ok]
        exact ⟨paths, ih hrest, rfl⟩
  aggregate := by
    have hbytes : ∀ e ∈ (paths.map entry).insertionSort (fun a b => textOf a "path" ≤ textOf b "path"), ∃ bytes, entryBytes e = .ok bytes := by
      intro e he
      rw [(List.perm_insertionSort _ _).mem_iff] at he
      obtain ⟨path, hpath, rfl⟩ := List.mem_map.mp he
      exact entry_bytes (eq_ok_of_toOption (closure_paths (hpaths.subset hpath)).1)
    obtain ⟨parts, hparts⟩ := exists_mapM hbytes
    rw [aggregateEntries]
    exact bind_eq_ok.mpr ⟨parts, hparts, rfl⟩

theorem loaded_pinned {byte : UInt8} {paths : List String} (hpaths : paths.Sublist requiredCancelFiles) :
    (loaded byte paths).Pinned layout where
  sourceCommit := sample_texts.1.1
  bundleDigest := sample_texts.1.2.1
  installTransaction := sample_texts.1.2.2
  protocolVersion := beq_self_eq_true runtimeProtocolVersion
  schemaCompatibility := beq_self_eq_true currentSchemaCompatibility
  probeVersion := beq_self_eq_true currentProbeVersion
  commit := (Value.str_eq _ _).mpr rfl
  package := (Value.str_eq _ _).mpr rfl
  transaction := (Value.str_eq _ _).mpr rfl
  supportRoot := beq_iff_eq.mpr sample_texts.2.2.2.1.symm
  skillsRoot := beq_iff_eq.mpr sample_texts.2.2.2.2.symm
  protocol := (Value.str_eq _ _).mpr rfl
  distinct := by
    have hlower : paths.map casefold = paths := by
      conv_rhs => rw [← List.map_id paths]
      exact List.map_congr_left fun path hpath => (closure_paths (hpaths.subset hpath)).2.1
    show ((paths.map casefold).dedup.length == paths.length) = true
    rw [hlower, (closure_nodup.sublist hpaths).dedup, beq_self_eq_true]
  aggregate := (Value.str_eq _ _).mpr rfl
  digest := beq_self_eq_true digest
  manifest := (Value.str_eq _ _).mpr rfl

theorem entry_installed {byte : UInt8} {path : String} (hpath : path ∈ requiredCancelFiles) :
    Installed layout (disk byte) (entry path) path := by
  have hfits : fits (entry path) [0] = true := by
    rw [fits, Bool.and_eq_true]
    exact ⟨rfl, (Value.str_eq _ _).mpr rfl⟩
  refine ⟨[0], disk_isFile ?_, hfits⟩
  simp only [disk, (closure_paths hpath).2.2]

/-- An installation with some files of the closure, the bootstrap among them, is accepted. -/
theorem loaded_accepted {byte : UInt8} {paths : List String} (hpaths : paths.Sublist requiredCancelFiles)
    (hbootstrap : requiredBootstrapPaths.Sublist paths)
    (hbundle : Process.loads [byte] = some (bundle paths)) :
    verifyInstalledBundle layout (disk byte) = .ok ((loaded byte paths).evidence paths.length) := by
  refine verifyInstalledBundle_eq_ok.mpr ⟨_, loaded_reads hpaths hbundle, loaded_pinned hpaths, ?_, ?_, ?_⟩
  · exact List.all_eq_true.mpr fun path hpath => List.contains_iff_mem.mpr (hbootstrap.subset hpath)
  · intro p hp
    have hzip : (paths.map entry).zip paths = paths.map fun path => (entry path, path) := by
      rw [← List.zip_map', List.map_id']
    obtain ⟨path, hpath, rfl⟩ := List.mem_map.mp (hzip ▸ hp)
    exact entry_installed (hpaths.subset hpath)
  · rw [show (loaded byte paths).entries = paths.map entry from rfl, List.length_map]

/-- An installation with the whole closure, accepted by both. -/
theorem run_and_stop_sample : ∃ ev, verifyInstalledBundle layout (disk 3) = .ok ev ∧
    ∃ ev', verifyCancelDependencyClosure layout (disk 3) = .ok ev' ∧ ev'.identity = ev.identity := by
  have hok := @loaded_accepted 3 _ (.refl _) bootstrap_sublist rfl
  have hlists : inventory layout (disk 3) = .ok requiredCancelFiles := (loaded_reads (.refl _) rfl).inventory_eq
  exact ⟨_, hok, (run_and_stop hok).1.mpr ⟨_, hlists, fun _ h => h⟩⟩

/-- An installation whose inventory lists the mandatory bootstrap only may run, and may not stop. -/
theorem runs_without_stop : (∃ ev, verifyInstalledBundle layout (disk 2) = .ok ev) ∧
    ∀ ev, verifyCancelDependencyClosure layout (disk 2) ≠ .ok ev := by
  refine ⟨⟨_, loaded_accepted bootstrap_sublist (.refl _) rfl⟩, fun ev hok => ?_⟩
  obtain ⟨m, hreads, -, hrequired, -⟩ := verifyCancelDependencyClosure_eq_ok.mp hok
  obtain rfl := hreads.unique (loaded_reads bootstrap_sublist rfl)
  cases sample_texts.2.2.1.2.symm.trans hrequired

end Runs

end CodingOS.Bootstrap
