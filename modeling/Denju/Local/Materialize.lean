import Denju.Local.Store

/-!
# Materialization

A revision is written to a stage, verified, moved to its generation and made
visible by switching the canonical link.  A journal records how far the
operation has come, so that recovery can finish it or forget it.
-/

namespace Denju.Local

open Lib

variable (ext : Externals)

/-!
## Trees of files
-/

abbrev Tree := List OwnedSkillEntry

namespace Tree

def entry? (tree : Tree) (path : Text) : Option OwnedSkillEntry :=
  tree.find? fun entry => entry.path = path

def put (tree : Tree) (entry : OwnedSkillEntry) : Tree :=
  deleteWhere (fun old => old.path = entry.path) tree ++ [entry]

/-- A path and the paths above it, from the top. -/
def chain (path : Text) : List Text :=
  if path.isEmpty then
    []
  else
    let components := path.splitOn '/'
    (List.range components.length).map fun stop =>
      join '/' (components.take (stop + 1))

def createDir (tree : Tree) (path : Text) : Except MaterializationError Tree :=
  match tree.entry? path with
  | none => .ok (tree.put (.directory path))
  | some (.directory _) => .ok tree
  | some _ => .error (.io "File exists")

def createDirAll (tree : Tree) (path : Text) :
    Except MaterializationError Tree :=
  (chain path).foldlM createDir tree

def copy (tree : Tree) (path : Text) (bytes : Bytes) :
    Except MaterializationError Tree :=
  match tree.entry? path with
  | some (.directory _) => .error (.io "Is a directory")
  | _ => .ok (tree.put (.file path bytes false))

def setPermissions (tree : Tree) (path : Text) (executable : Bool) :
    Except MaterializationError Tree :=
  match tree.entry? path with
  | some (.file _ bytes _) => .ok (tree.put (.file path bytes executable))
  | _ => .error (.io "No such file or directory")

def createSymlink (tree : Tree) (path target : Text) :
    Except MaterializationError Tree :=
  match tree.entry? path with
  | none => .ok (tree.put (.symlink path target))
  | some _ => .error (.io "File exists")

end Tree

def isDir (path : GenerationPath) : LocalRoutine Bool :=
  .ask fun s => .done (s.directories path).isSome

def changeTree (path : GenerationPath)
    (f : Tree -> Except MaterializationError Tree) : LocalRoutine Unit :=
  filesystem fun s => do
    let tree <- f ((s.directories path).getD [])
    return ((), s.setDirectory path (some tree))

def createDirAll (root : GenerationPath) (path : Text) : LocalRoutine Unit :=
  changeTree root fun tree => tree.createDirAll path

/-- Children go before the directories that hold them. -/
def removalOrder (tree : Tree) : List Text :=
  (sortByKey (fun entry : OwnedSkillEntry =>
    OrderDual.toDual (pathComponentCount entry.path)) tree).map SkillEntry.path

def removeEntry (root : GenerationPath) (path : Text) : LocalRoutine Unit :=
  filesystem fun s =>
    .ok ((), s.setDirectory root
      ((s.directories root).map (deleteWhere fun entry => entry.path = path)))

def listing (root : GenerationPath) : LocalRoutine Tree :=
  inspect fun s => okOr (s.directories root) (.io "No such file or directory")

def removeDir (root : GenerationPath) : LocalRoutine Unit :=
  filesystem fun s => do
    let tree <- okOr (s.directories root) (.io "No such file or directory")
    ensure tree.isEmpty (.io "Directory not empty")
    return ((), s.setDirectory root none)

def removeDirAll (root : GenerationPath) : LocalRoutine Unit := do
  let tree <- listing root
  Routine.each (removeEntry root) (removalOrder tree)
  removeDir root

/-- A directory of the same name is only replaced when it is empty. -/
def renameDir (source target : GenerationPath) : LocalRoutine Unit :=
  filesystem fun s => do
    let tree <- okOr (s.directories source) (.io "No such file or directory")
    ensure ((s.directories target).getD []).isEmpty (.io "Directory not empty")
    return ((), (s.setDirectory target (some tree)).setDirectory source none)

/-!
## Writing and verifying a generation
-/

def storeCasBlob (bytes : Bytes) : LocalRoutine BlobId :=
  filesystem fun s =>
    let blob := BlobId.hash ext bytes
    match s.objects blob with
    | some content =>
        if BlobId.hash ext content = blob then
          .ok (blob, s)
        else
          .error (.corrupt "local CAS object does not match its content"
            (.blob blob))
    | none =>
        .ok (blob, { s with
          objects := Function.update s.objects blob (some bytes) })

def copyObject (root : GenerationPath) (path : Text) (blob : BlobId) :
    LocalRoutine Unit :=
  filesystem fun s => do
    let bytes <- okOr (s.objects blob) (.io "No such file or directory")
    let tree <- Tree.copy ((s.directories root).getD []) path bytes
    return ((), s.setDirectory root (some tree))

def writeEntry (root : GenerationPath) : OwnedSkillEntry -> LocalRoutine Unit
  | .file path bytes executable => do
      let blob <- storeCasBlob ext bytes
      createDirAll root (splitParent path).1
      copyObject root path blob
      changeTree root fun tree => tree.setPermissions path executable
  | .directory _ => return ()
  | .symlink path target => do
      createDirAll root (splitParent path).1
      changeTree root fun tree => tree.createSymlink path target

/-- The directories of the entries, from the top. -/
def directoriesOf (entries : List OwnedSkillEntry) : List Text :=
  sortByKey (fun path : Text => (path.splitOn '/').length)
    (entries.filterMap fun entry =>
      match entry with
      | .directory path => some path
      | _ => none)

def writeGeneration (root : GenerationPath) (entries : List OwnedSkillEntry) :
    LocalRoutine Unit := do
  createDirAll root []
  Routine.each (createDirAll root) (directoriesOf entries)
  Routine.each (writeEntry ext root) entries

/-- What verification finds in a tree. -/
def verifyTree (skillName : Text) (expected : SkillManifest) (tree : Tree) :
    Except MaterializationError Unit := do
  let actual <- (buildSkillManifest ext skillName tree).mapError .snapshot
  ensure (actual == expected) .manifestMismatch

def verifyGeneration (root : GenerationPath) (skillName : Text)
    (expected : SkillManifest) : LocalRoutine Unit :=
  inspect fun s => do
    let tree <- okOr (s.directories root) (.io "No such file or directory")
    verifyTree ext skillName expected tree

/-!
## Links
-/

/-- Whether the canonical path resolves to the generation. -/
def canonicalTargetsGeneration (path : SkillPath)
    (generation : GenerationPath) : LocalRoutine Bool :=
  inspect fun s =>
    match s.skills path with
    | none => .ok false
    | some .unmanaged => do
        ensure (s.directories generation).isSome (.io "No such file or directory")
        return false
    | some (.link target) =>
        if (s.directories target).isSome then do
          ensure (s.directories generation).isSome
            (.io "No such file or directory")
          return target = generation
        else
          .ok false

/-- A path that is no link is never overwritten. -/
def refuseUnmanaged (path : SkillPath) : LocalRoutine Unit :=
  inspect fun s => ensure (s.skills path ≠ some .unmanaged) (.refuseOverwrite path)

def renameLink (target : GenerationPath) (path : SkillPath) :
    LocalRoutine Unit :=
  filesystem fun s => do
    ensure (s.skills path ≠ some .unmanaged) (.io "Is a directory")
    return ((), s.setSkill path (some (.link target)))

def atomicSwitchDirectoryLink (target : GenerationPath) (path : SkillPath) :
    LocalRoutine Unit := do
  refuseUnmanaged path
  renameLink target path

def removeOwnedLink (path : SkillPath) : LocalRoutine Unit :=
  filesystem fun s => do
    ensure (s.skills path ≠ some .unmanaged) (.refuseOverwrite path)
    return ((), s.setSkill path none)

def removeCanonicalSkill (owner skillName : Text) : LocalRoutine Unit :=
  removeOwnedLink ⟨owner, skillName⟩

/-!
## Materialization and recovery
-/

structure DesiredSkillMaterialization where
  resourceId : ResourceId
  owner : Text
  skillName : Text
  revisionId : RevisionId
  manifest : SkillManifest
deriving DecidableEq

namespace DesiredSkillMaterialization

def generationDir (desired : DesiredSkillMaterialization) : GenerationPath :=
  .generation desired.resourceId desired.revisionId

def stageDir (desired : DesiredSkillMaterialization)
    (operationId : OperationId) : GenerationPath :=
  .stage desired.resourceId operationId

def canonicalPath (desired : DesiredSkillMaterialization) : SkillPath :=
  ⟨desired.owner, desired.skillName⟩

def payload (desired : DesiredSkillMaterialization)
    (operationId : OperationId) : MaterializationJournalPayload :=
  { resourceId := desired.resourceId
    revisionId := desired.revisionId
    stageDir := desired.stageDir operationId
    generationDir := desired.generationDir
    canonicalPath := desired.canonicalPath }

end DesiredSkillMaterialization

def advance (operationId : OperationId) (expected next : JournalState) :
    LocalRoutine Unit :=
  transaction fun s =>
    s.updateMaterializationJournal operationId expected next

def markMaterialized (resourceId : ResourceId) (revisionId : RevisionId) :
    LocalRoutine Unit :=
  transaction fun s => s.markSkillMaterialized resourceId revisionId

/-- A generation that is no longer the canonical target is only a cache: when it
has been edited it is rebuilt. -/
def generationReady (desired : DesiredSkillMaterialization) :
    LocalRoutine Bool := do
  if <- isDir desired.generationDir then
    match <- (verifyGeneration ext desired.generationDir desired.skillName
        desired.manifest).attempt with
    | .ok () => return true
    | .error .manifestMismatch =>
        if <- canonicalTargetsGeneration desired.canonicalPath
            desired.generationDir then
          .fail .manifestMismatch
        else
          removeDirAll desired.generationDir
          return false
    | .error error => .fail error
  else
    return false

/-- From the verified state on, the link is switched and the rows stamped. -/
def finishMaterialization (operationId : OperationId)
    (payload : MaterializationJournalPayload) : LocalRoutine Unit := do
  atomicSwitchDirectoryLink payload.generationDir payload.canonicalPath
  advance operationId .verified .switched
  markMaterialized payload.resourceId payload.revisionId
  advance operationId .switched .complete

def writeStage (desired : DesiredSkillMaterialization)
    (entries : List OwnedSkillEntry) (operationId : OperationId)
    (ready : Bool) : LocalRoutine Unit :=
  if ready then
    return ()
  else do
    (removeDirAll (desired.stageDir operationId)).ignore
    writeGeneration ext (desired.stageDir operationId) entries

def moveStage (desired : DesiredSkillMaterialization)
    (operationId : OperationId) : LocalRoutine Unit := do
  if <- isDir desired.generationDir then
    return ()
  else
    verifyGeneration ext (desired.stageDir operationId) desired.skillName
      desired.manifest
    renameDir (desired.stageDir operationId) desired.generationDir

def materializeWithLease (desired : DesiredSkillMaterialization)
    (entries : List OwnedSkillEntry) (operationId : OperationId) :
    LocalRoutine GenerationPath := do
  transaction fun s =>
    s.createMaterializationJournal operationId (desired.payload operationId)
  let ready <- generationReady ext desired
  writeStage ext desired entries operationId ready
  advance operationId .planned .staged
  moveStage ext desired operationId
  advance operationId .staged .verified
  finishMaterialization operationId (desired.payload operationId)
  return desired.generationDir

/-- The switched link has to be what was verified. -/
def checkSwitched (payload : MaterializationJournalPayload) :
    LocalRoutine Unit :=
  inspect fun s =>
    match s.skills payload.canonicalPath with
    | none => .error (.io "No such file or directory")
    | some .unmanaged => do
        ensure (s.directories payload.generationDir).isSome
          (.io "No such file or directory")
        .error (.corrupt
          "switched canonical path does not target verified generation"
          (.resource payload.resourceId))
    | some (.link target) => do
        ensure ((s.directories target).isSome &&
          (s.directories payload.generationDir).isSome)
          (.io "No such file or directory")
        ensure (target = payload.generationDir) (.corrupt
          "switched canonical path does not target verified generation"
          (.resource payload.resourceId))

def recoverMaterialization (journal : MaterializationJournal) :
    LocalRoutine Unit :=
  match journal.state with
  | .planned | .staged => do
      (removeDirAll journal.payload.stageDir).ignore
      transaction fun s =>
        .ok ((), s.discardMaterializationJournal journal.operationId)
  | .verified => do
      if <- isDir journal.payload.generationDir then
        finishMaterialization journal.operationId journal.payload
      else
        .fail (.corrupt "verified generation is missing"
          (.resource journal.payload.resourceId))
  | .switched => do
      checkSwitched journal.payload
      markMaterialized journal.payload.resourceId journal.payload.revisionId
      advance journal.operationId .switched .complete
  | .complete => return ()

def recoverMaterializations : LocalRoutine Unit := do
  let journals <- transaction fun s => .ok (s.materializationJournals, s)
  Routine.each recoverMaterialization journals

def leaseTtl : Nat := 60000

def requireLease (resourceId : ResourceId) (claimed : Bool) :
    LocalRoutine Unit :=
  if claimed then
    return ()
  else
    .fail (.busy resourceId)

def materializeSkillSnapshot (desired : DesiredSkillMaterialization)
    (snapshot : Bytes) (operationId : OperationId) :
    LocalRoutine GenerationPath := do
  recoverMaterializations
  let entries <- LocalRoutine.ofExcept
    ((validateSkillSnapshot ext desired.skillName desired.manifest
      snapshot).mapError .snapshot)
  let claimed <- transaction fun s =>
    s.claimLease desired.resourceId operationId leaseTtl
  requireLease desired.resourceId claimed
  let result <- (materializeWithLease ext desired entries operationId).attempt
  (transaction fun s =>
    .ok ((), s.releaseLease desired.resourceId operationId)).ignore
  LocalRoutine.ofExcept result

/-!
## Running alone
-/

section Run

variable {ext} {s t : LocalState}

@[simp] theorem run_isDir {path : GenerationPath} :
    (isDir path).run s = (.ok (s.directories path).isSome, s) :=
  rfl

theorem run_filesystem {α : Type} {value : α}
    {f : LocalState -> Except MaterializationError (α × LocalState)}
    (h : f s = .ok (value, t)) : (filesystem f).run s = (.ok value, t) := by
  unfold filesystem
  rw [Routine.run_act, h]

theorem run_filesystem_error {α : Type} {error : MaterializationError}
    {f : LocalState -> Except MaterializationError (α × LocalState)}
    (h : f s = .error error) : (filesystem f).run s = (.error error, s) := by
  unfold filesystem
  rw [Routine.run_act, h]

theorem run_inspect {α : Type}
    {f : LocalState -> Except MaterializationError α} :
    (inspect f).run s = (f s, s) :=
  Routine.run_check

theorem run_transaction {α : Type} {value : α}
    {f : LocalState -> Except LocalDbError (α × LocalState)}
    (h : f s = .ok (value, t)) : (transaction f).run s = (.ok value, t) := by
  unfold transaction
  rw [Routine.run_act, h]
  rfl

theorem run_transaction_error {α : Type} {error : LocalDbError}
    {f : LocalState -> Except LocalDbError (α × LocalState)}
    (h : f s = .error error) :
    (transaction f).run s = (.error (.database error), s) := by
  unfold transaction
  rw [Routine.run_act, h]
  rfl

theorem run_ignore {α : Type} {p : LocalRoutine α} :
    p.ignore.run s = (.ok (), (p.run s).2) := by
  unfold Routine.ignore
  rw [Routine.run_bind, Routine.run_attempt]
  rfl

end Run

/-!
## A sample device

One skill is subscribed to, and its generation is on the disk.
-/

namespace Sample

def deviceUuid (n : UInt8) : Vector UInt8 16 :=
  #[0x01, 0x89, 0x0f, 0x47, 0x6a, 0x1d, 0x7a, 0xd0, 0x8f, 0x43, 0x9a, 0x4d,
    0x8c, 0x29, 0xf0, n].toVector

theorem deviceUuid_version (n : UInt8) : (deviceUuid n).get 6 >>> 4 = 7 := by
  change (0x7a : UInt8) >>> 4 = 7
  decide

def deviceOperation (n : UInt8) : OperationId :=
  ⟨⟨deviceUuid n, deviceUuid_version n⟩⟩

def desired : DesiredSkillMaterialization where
  resourceId := "01890f47-6a1c-7cc2-98c1-5f6c1ed8a3a1".toList
  owner := "alice".toList
  skillName := Denju.Sample.name
  revisionId := ⟨digestOfNat 1⟩
  manifest := Denju.Sample.linkedManifest

def entries : List OwnedSkillEntry :=
  Denju.Sample.entries "bin/run"

def subscription : SubscriptionRecord where
  resourceId := desired.resourceId
  locator := "@alice/a".toList
  owner := desired.owner
  skillName := desired.skillName
  resourceGeneration := 1
  desiredRevisionId := desired.revisionId
  harnessName := none
  releaseVersion := 1
  materializedRevisionId := none
  retainOnDelete := false
  retainedAfterDelete := false
  livePrivate := false
  desiredRootTreeId := desired.manifest.rootTree

def store : LocalState where
  clock := 0
  subscriptions := [subscription]
  ownedSkills := []
  packSkills := []
  packSkillSources := []
  suppressions := []
  materializations := []
  lifecycles := []
  packApplies := []
  leases := []
  skills _ := none
  directories path :=
    if path = desired.generationDir then some entries else none
  objects _ := none
  quarantine _ := none
  projections _ := none

end Sample

end Denju.Local
