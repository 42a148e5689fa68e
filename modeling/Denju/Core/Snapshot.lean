import Denju.Core.Object
import Denju.Core.Skill
import Mathlib.Data.Prod.Lex
import Mathlib.Order.OrderDual

/-!
# Skill manifests and snapshots

A manifest lists the entries of a skill tree by path and names its root tree.
A snapshot is the compressed archive of the same entries.  Reading a snapshot
back recomputes the manifest before any entry is returned.
-/

namespace Denju

open Lib

/-- One complete entry of a skill tree. -/
abbrev OwnedSkillEntry := SkillEntry

inductive SnapshotError where
  | skill (source : SkillValidationError)
  | tree (source : TreeError)
  | portablePath (source : PortablePathError)
  | portableTree (source : PortableTreeError)
  | io (message : Text)
  | entryTooLarge
  | missingChildTree (path : Text)
  | archivePathNotUtf8
  | unsupportedArchiveEntry
  | missingSymlinkTarget
  | manifestMismatch
  | declaredRootMismatch
deriving DecidableEq, Repr

/-!
## Manifests
-/

inductive SkillManifestEntry where
  | file (path : Text) (blob : BlobId) (size : Nat) (executable : Bool)
  | directory (path : Text)
  | symlink (path target : Text)
deriving DecidableEq, Repr

namespace SkillManifestEntry

def path : SkillManifestEntry -> Text
  | .file path _ _ _ => path
  | .directory path => path
  | .symlink path _ => path

def kind : SkillManifestEntry -> PortableEntryKind
  | .file _ _ _ executable => .file executable
  | .directory _ => .directory
  | .symlink _ target => .symlink target

def key (entry : SkillManifestEntry) : Bytes :=
  utf8 entry.path

end SkillManifestEntry

def SkillEntry.key (entry : SkillEntry) : Bytes :=
  utf8 entry.path

structure SkillManifest where
  rootTree : TreeId
  entries : List SkillManifestEntry
deriving DecidableEq, Repr

variable (ext : Externals)

structure SkillManifestTree where
  id : TreeId
  entries : List (TreeEntry ext)

variable {ext}

/-- The parent path and the last component. -/
def splitParent (path : Text) : Text × Text :=
  let components := path.splitOn '/'
  (join '/' components.dropLast, components.getLastD [])

def pathComponentCount (path : Text) : Nat :=
  if path.isEmpty then 0 else (path.splitOn '/').length

/-- Deeper directories first, then by path bytes. -/
def directoryKey (path : Text) : Natᵒᵈ ×ₗ Bytes :=
  toLex (OrderDual.toDual (pathComponentCount path), utf8 path)

def manifestDirectories (entries : List SkillManifestEntry) : List Text :=
  entries.filterMap fun entry =>
    match entry with
    | .directory path => some path
    | _ => none

/-- What a manifest entry is in the tree of its parent. -/
def childKind (treeIds : List (Text × TreeId)) :
    SkillManifestEntry -> Except SnapshotError TreeEntryKind
  | .file _ blob _ executable => .ok (.file blob executable)
  | .directory path =>
      match treeIds.lookup path with
      | some tree => .ok (.directory tree)
      | none => .error (.missingChildTree path)
  | .symlink _ target => .ok (.symlink target)

/-- The child of a tree that a manifest entry stands for. -/
def childEntry (treeIds : List (Text × TreeId)) (entry : SkillManifestEntry) :
    Except SnapshotError (TreeEntry ext) := do
  let kind <- childKind treeIds entry
  (TreeEntry.new (splitParent entry.path).2 kind).mapError .tree

/-- The directory loop, with the identifiers of the trees built so far. -/
def buildTrees (manifestEntries : List SkillManifestEntry) :
    List Text -> List (Text × TreeId) -> List (Text × SkillManifestTree ext) ->
      Except SnapshotError (List (Text × SkillManifestTree ext))
  | [], _, output => .ok output
  | directory :: rest, treeIds, output => do
      let children <-
        (manifestEntries.filter fun entry =>
          (splitParent entry.path).1 = directory).mapM (childEntry treeIds)
      let id <- (TreeId.fromEntries children).mapError .tree
      buildTrees manifestEntries rest ((directory, id) :: treeIds)
        (output ++ [(directory, { id, entries := children })])

variable (ext) in
def buildManifestTreeObjects (manifestEntries : List SkillManifestEntry) :
    Except SnapshotError (List (Text × SkillManifestTree ext)) :=
  buildTrees manifestEntries
    (sortByKey directoryKey (manifestDirectories manifestEntries ++ [[]])) [] []

/-- The identifier of the tree at the empty path. -/
def rootTreeOf (trees : List (Text × SkillManifestTree ext)) :
    Except SnapshotError TreeId :=
  okOr ((trees.find? fun tree => tree.1.isEmpty).map fun tree => tree.2.id)
    (.missingChildTree "<root>".toList)

variable (ext) in
def manifestEntryOf (entry : OwnedSkillEntry) :
    Except SnapshotError SkillManifestEntry :=
  match entry with
  | .file path bytes executable =>
      if bytes.length < 2 ^ 64 then
        .ok (.file path (BlobId.hash ext bytes) bytes.length executable)
      else
        .error .entryTooLarge
  | .directory path => .ok (.directory path)
  | .symlink path target => .ok (.symlink path target)

variable (ext) in
def buildSkillManifest (parentDirectoryName : Text)
    (entries : List OwnedSkillEntry) : Except SnapshotError SkillManifest := do
  let _ <- (validateSkillDirectory ext parentDirectoryName entries).mapError
    .skill
  let manifestEntries <- entries.mapM (manifestEntryOf ext)
  let manifestEntries := sortByKey SkillManifestEntry.key manifestEntries
  let trees <- buildManifestTreeObjects ext manifestEntries
  let rootTree <- rootTreeOf trees
  return { rootTree, entries := manifestEntries }

variable (ext) in
def validateDeclaredSkillManifest (manifest : SkillManifest) :
    Except SnapshotError (List (SkillManifestTree ext)) := do
  let portable : List (PortableEntry ext) <-
    manifest.entries.mapM fun entry =>
      (PortableEntry.new entry.path entry.kind).mapError .portablePath
  let _ <- (validatePortableTree portable).mapError .portableTree
  ensure (manifest.entries.any fun entry =>
    match entry with
    | .file path _ _ _ => path == skillMdPath
    | _ => false) (.skill .missingSkillMd)
  let trees <- buildManifestTreeObjects ext manifest.entries
  let root <- rootTreeOf trees
  ensure (root == manifest.rootTree) .declaredRootMismatch
  return trees.map Prod.snd

variable (ext) in
def buildSkillManifestFromHashedEntries (parentDirectoryName : Text)
    (skillMdBytes : Bytes) (entries : List SkillManifestEntry) :
    Except SnapshotError SkillManifest := do
  let _ <- (parseSkillDocument ext parentDirectoryName skillMdBytes).mapError
    .skill
  let entries := sortByKey SkillManifestEntry.key entries
  let skillEntry <- okOr
    (entries.findSome? fun entry =>
      match entry with
      | .file path blob size _ =>
          if path = skillMdPath then some (blob, size) else none
      | _ => none)
    (.skill .missingSkillMd)
  ensure (skillMdBytes.length < 2 ^ 64) .entryTooLarge
  ensure (skillEntry == (BlobId.hash ext skillMdBytes, skillMdBytes.length))
    .manifestMismatch
  let trees <- buildManifestTreeObjects ext entries
  let rootTree <- rootTreeOf trees
  let manifest : SkillManifest := { rootTree, entries }
  let _ <- validateDeclaredSkillManifest ext manifest
  return manifest

/-!
## Archives

The archive stores a path or a link name as its components joined by `/`: empty
components and every `.` but a leading one disappear.  A link name of more than
100 bytes is refused.
-/

/-- The components of a relative path. -/
def pathComponents (path : Text) : List Text :=
  match (path.splitOn '/').filter (fun component => !component.isEmpty) with
  | [] => []
  | first :: rest =>
      first :: rest.filter fun component => component != ".".toList

def storedPath (path : Text) : Text :=
  join '/' (pathComponents path)

def setLinkName (target : Text) : Except SnapshotError Text :=
  if (utf8 (storedPath target)).length > 100 then
    .error (.io "provided value is too long".toList)
  else
    .ok (storedPath target)

def appendEntry (entry : OwnedSkillEntry) : Except SnapshotError TarRecord :=
  match entry with
  | .file path bytes executable =>
      if bytes.length < 2 ^ 64 then
        .ok
          { entryType := .regular
            path := storedPath path
            mode := if executable then 0o755 else 0o644
            linkName := none
            data := bytes }
      else
        .error .entryTooLarge
  | .directory path =>
      .ok
        { entryType := .directory
          path := storedPath path
          mode := 0o755
          linkName := none
          data := [] }
  | .symlink path target => do
      let linkName <- setLinkName target
      .ok
        { entryType := .symlink
          path := storedPath path
          mode := 0o777
          linkName := some linkName
          data := [] }

structure DeterministicSkillSnapshot where
  manifest : SkillManifest
  bytes : Bytes
deriving DecidableEq, Repr

variable (ext) in
def buildDeterministicSkillSnapshot (parentDirectoryName : Text)
    (entries : List OwnedSkillEntry) :
    Except SnapshotError DeterministicSkillSnapshot := do
  let manifest <- buildSkillManifest ext parentDirectoryName entries
  let records <- (sortByKey SkillEntry.key entries).mapM appendEntry
  let bytes <- (ext.archiveWrite records).mapError .io
  return { manifest, bytes }

/-- One item of an archive as an entry. -/
def readItem (item : Except Text TarItem) :
    Except SnapshotError OwnedSkillEntry := do
  let item <- item.mapError .io
  let path <- item.path.mapError .io
  let path <- okOr (fromUtf8 path) .archivePathNotUtf8
  let path := trimEndMatches (fun c => c == '/') path
  ensure (!path.isEmpty) .unsupportedArchiveEntry
  match item.entryType with
  | .regular =>
      let bytes <- item.data.mapError .io
      let mode <- item.mode.mapError .io
      return .file path bytes (mode &&& 0o111 != 0)
  | .directory => return .directory path
  | .symlink =>
      let linkName <- item.linkName.mapError .io
      let target <- okOr linkName .missingSymlinkTarget
      let target <- okOr (fromUtf8 target) .archivePathNotUtf8
      return .symlink path target
  | .other => .error .unsupportedArchiveEntry

variable (ext) in
def validateSkillSnapshot (parentDirectoryName : Text)
    (expected : SkillManifest) (compressed : Bytes) :
    Except SnapshotError (List OwnedSkillEntry) := do
  let items <- (ext.archiveRead compressed).mapError .io
  let entries <- items.mapM readItem
  let actual <- buildSkillManifest ext parentDirectoryName entries
  ensure (actual == expected) .manifestMismatch
  return entries

end Denju
