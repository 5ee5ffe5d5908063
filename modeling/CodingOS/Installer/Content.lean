import CodingOS.Python.Bytes

/-!
# What a path holds, and its hash

The installer compares what a path holds by one hash: that of the bytes of a file, or of the paths,
sizes and digests of the regular files below a directory.  A link is kept with what it resolves to, since
`exists` and `is_file` follow it.
-/

namespace CodingOS.Installer

open CodingOS.Python

/-- An absolute resolved path, by its components. -/
abbrev Path := List String

/-- What is found below a directory. -/
inductive Leaf
  | directory
  | file (content : List UInt8)
  | link
  | special
deriving DecidableEq

/-- What is found at a path.  The leaves of a tree are all that is below the directory, each under its
relative path; `resolved` is what a link leads to, if anything: the bytes of a file or something else. -/
inductive Node
  | file (content : List UInt8)
  | tree (leaves : List (String × Leaf))
  | link (resolved : Option (Option (List UInt8)))
  | special
deriving DecidableEq

/-- `Path.exists()`. -/
def present : Option Node → Bool
  | none | some (.link none) => false
  | _ => true

/-- `Path.is_file()`. -/
def isFile : Option Node → Bool
  | some (.file _) | some (.link (some (some _))) => true
  | _ => false

/-- `_is_link_or_reparse`. -/
def isLink : Option Node → Bool
  | some (.link _) => true
  | _ => false

/-- A regular file or a directory. -/
def isRegular : Option Node → Bool
  | some (.file _) | some (.tree _) => true
  | _ => false

inductive ErrorKind
  | transaction | bundle | ownership | recovery | effect | os
deriving DecidableEq

structure InstallError where
  kind : ErrorKind
  message : String
deriving DecidableEq

/-- The host: `unicodedata.normalize("NFC", text)` and the directory for temporary files. -/
class Host where
  nfc : String → String
  temporaryRoot : Path

section Hashes

variable [Runtime] [FileDigest] [Host]

/-- An entry of a tree: the relative path, the size and the digest of a file. -/
structure TreeEntry where
  path : String
  size : ℕ
  sha256 : String
deriving DecidableEq

/-- `_validate_casefold_collisions`. -/
def validateCasefoldCollisions (label : String) : List (String × String) → List String →
    Except InstallError Unit
  | _, [] => .ok ()
  | seen, path :: rest =>
      let key := casefold (Host.nfc path)
      match seen.find? (·.1 = key) with
      | none => validateCasefoldCollisions label ((key, path) :: seen) rest
      | some (_, prior) =>
          if prior ≠ path then
            .error ⟨.bundle, "case-insensitive " ++ label ++ " collision: " ++ prior ++ " and " ++ path⟩
          else .error ⟨.bundle, "duplicate " ++ label ++ " entry: " ++ path⟩

/-- The files of a tree, in the order they are met; a link or a special file below it is refused. -/
def fileEntries : List (String × Leaf) → Except InstallError (List TreeEntry)
  | [] => .ok []
  | (_, .directory) :: rest => fileEntries rest
  | (path, .file content) :: rest => do
      let entries ← fileEntries rest
      .ok (⟨Host.nfc path, content.length, FileDigest.sha256 content⟩ :: entries)
  | (path, .link) :: _ => .error ⟨.transaction, "managed target cannot contain links: " ++ path⟩
  | (path, .special) :: _ =>
      .error ⟨.transaction, "managed target cannot contain special files: " ++ path⟩

/-- `_tree_entries`, of a directory. -/
def treeEntries (leaves : List (String × Leaf)) : Except InstallError (List TreeEntry) := do
  let entries := (← fileEntries leaves).insertionSort fun a b => a.path ≤ b.path
  validateCasefoldCollisions "managed target path" [] (entries.map (·.path))
  return entries

/-- The bytes `_tree_hash` digests. -/
def treeBytes (entries : List TreeEntry) : List UInt8 :=
  utf8 "CCOS-TREE-v1" ++ [0] ++ entries.flatMap fun entry =>
    utf8 entry.path ++ [0] ++ utf8 (toString entry.size) ++ [0] ++ fromHex entry.sha256.toList

/-- `_tree_hash`.  A special file is neither a file nor a directory: the walk below it finds nothing. -/
def treeHash : Option Node → Except InstallError (Option String)
  | none | some (.link none) => .ok none
  | some (.file content) | some (.link (some (some content))) => .ok (some (FileDigest.sha256 content))
  | some (.link (some none)) => .error ⟨.transaction, "managed target cannot be a link"⟩
  | some (.tree leaves) => do return some (FileDigest.sha256 (treeBytes (← treeEntries leaves)))
  | some .special => .ok (some (FileDigest.sha256 (treeBytes [])))

/-- A path has no hash exactly when nothing is there, or a link that leads nowhere. -/
theorem treeHash_eq_none {n : Option Node} :
    treeHash n = .ok none ↔ present n = false := by
  match n with
  | none | some (.link none) => simp [treeHash, present]
  | some (.file _) | some (.link (some (some _))) | some (.link (some none)) | some .special =>
      simp [treeHash, present]
  | some (.tree leaves) =>
      rw [treeHash]
      cases treeEntries leaves <;> simp [present, bind, Except.bind, pure, Except.pure]

end Hashes

end CodingOS.Installer
