import Denju.Registry.Release
import Denju.Registry.Import
import Denju.Core.Rename

/-!
# Renaming a personal skill

A rename rewrites the name inside the skill document, which makes a new
revision on top of the head.  Its content is the stored archive of the head, or
a save that was prepared for it.
-/

namespace Denju

open Lib

def resourceAdvanced (current : Generation) : ApiError :=
  ApiError.new .generationConflict
    ("resource advanced to generation " ++ toString current.value)

def generationOutOfRange : ApiError :=
  ApiError.new .invalidRequest "generation exceeds database range"

def ownedSkillUnavailable : ApiError :=
  ApiError.new .unauthorized "owned skill is unavailable"

def nextGeneration (current : Generation) : Except ApiError Generation :=
  okOr current.checkedSucc resourceGenerationOverflow

def checkLifecycleHash (supplied : RequestHash)
    (expected : Except Text RequestHash) : Except ApiError Unit :=
  checkRequestHash supplied expected
    "request_hash does not match the canonical lifecycle payload"

/-!
## Redirects and lifecycle operations
-/

namespace Db

def upsertRedirect (db : Db) (session : Session) (namespaceId : Uuid)
    (slug : Text) (target : Uuid) : Except ApiError Db :=
  match db.redirects.find? (redirectAt namespaceId slug) with
  | none =>
      .ok { db with
        redirects := db.redirects ++ [⟨namespaceId, .skill, slug, target⟩] }
  | some row => do
      ensure (db.canManage session row.targetResourceId)
        (internalApiError "new row violates row-level security policy")
      return { db with
        redirects := updateWhere (redirectAt namespaceId slug)
          (fun row => { row with targetResourceId := target }) db.redirects }

/-- The stored answer of a lifecycle operation of the selected kind. -/
def replayLifecycleOperation {β : Type} (db : Db)
    (select : LifecycleOutcome -> Option β) (user : Uuid)
    (operationId : OperationId) (hash : RequestHash) (resourceId : Uuid) :
    Except ApiError (Option β) :=
  match findOperation db.lifecycleOperations user operationId with
  | none => .ok none
  | some row => do
      let differs := ApiError.new .operationConflict
        "operation_id was already used with different lifecycle content"
      ensure (row.requestHash == hash && row.target == resourceId) differs
      let outcome <- okOr (select row.outcome) differs
      return some outcome

theorem replayLifecycleOperation_eq_none {β : Type} {db : Db}
    {select : LifecycleOutcome -> Option β} {user : Uuid}
    {operationId : OperationId} {hash : RequestHash} {resourceId : Uuid}
    (h : db.replayLifecycleOperation select user operationId hash resourceId =
      .ok none) :
    findOperation db.lifecycleOperations user operationId = none := by
  unfold replayLifecycleOperation at h
  split at h
  · assumption
  · rcases bind_eq_ok.mp h with ⟨_, _, h⟩
    rcases bind_eq_ok.mp h with ⟨_, _, h⟩
    cases h

def recordLifecycleOperation (db : Db) (row : OperationRow LifecycleOutcome) :
    Except ApiError Db := do
  let rows <- recordOperation db.lifecycleOperations row
    "skill_lifecycle_operations_pkey"
  return { db with lifecycleOperations := rows }

/-- The live skill that its manager locks. -/
def lockActiveOwnedSkill (db : Db) (user resourceId : Uuid) :
    Except ApiError (ResourceRow × Text) := do
  let notFound := ApiError.new .notFound "owned skill not found"
  let row <- okOr
    ((db.findResource resourceId).filter fun row =>
      decide (row.kind = .skill) && !row.deleted &&
        db.canReadResource user resourceId &&
          db.canManageResource user resourceId)
    notFound
  let owner <- okOr (db.directory.namespaceById row.ownerNamespaceId) notFound
  return (row, owner.slug)

def slugTakenByOther (db : Db) (namespaceId resourceId : Uuid) (slug : Text) :
    Bool :=
  db.resources.any fun row =>
    row.ownerNamespaceId = namespaceId ∧ row.kind = .skill ∧
      row.slug = slug ∧ row.deleted = false ∧ row.id ≠ resourceId

/-- Use up the prepared save that a rename took its content from. -/
def consumePreparedRenameOperation (db : Db) (user : Uuid)
    (operationId : OperationId) (resourceId : Uuid) : Except ApiError Db := do
  let prepared := fun row : RevisionOperationRow =>
    decide (row.userId = user ∧ row.operationId = operationId ∧
      row.resourceId = resourceId ∧ row.state = .prepared)
  ensure ((db.revisionOperations.filter prepared).length == 1)
    (ApiError.new .generationConflict
      "prepared rename content was consumed concurrently")
  return { db with
    revisionOperations := deleteWhere prepared db.revisionOperations }

def consumePreparedRename (db : Db) (user : Uuid)
    (operationId : Option OperationId) (resourceId : Uuid) :
    Except ApiError Db :=
  match operationId with
  | none => .ok db
  | some operationId =>
      db.consumePreparedRenameOperation user operationId resourceId

/-- Keep the archive of a revision of a lifecycle operation. -/
def persistRevisionSnapshot (db : Db) (resourceId : Uuid)
    (revision : RevisionId) (snapshot : StoredSnapshot) :
    Except ApiError Db :=
  db.insertNewSnapshot { resourceId, revisionId := revision, snapshot }

end Db

def LifecycleOutcome.rename? : LifecycleOutcome -> Option RenameSkillResponse
  | .rename outcome => some outcome
  | .unpublish _ => none
  | .historyPrune _ => none
  | .delete _ => none
  | .deprecate _ => none

def LifecycleOutcome.unpublish? :
    LifecycleOutcome -> Option UnpublishSkillResponse
  | .rename _ => none
  | .unpublish outcome => some outcome
  | .historyPrune _ => none
  | .delete _ => none
  | .deprecate _ => none

/-!
## Renamed content
-/

/-- The entries with other bytes in their skill document. -/
def replaceSkillMd (bytes : Bytes) :
    List OwnedSkillEntry -> List OwnedSkillEntry
  | [] => []
  | .file path old executable :: rest =>
      if path = skillMdPath then .file path bytes executable :: rest
      else .file path old executable :: replaceSkillMd bytes rest
  | entry :: rest => entry :: replaceSkillMd bytes rest

/-- A revision that a rename stores. -/
structure RenamedContent where
  sourceRevisionId : RevisionId
  revisionId : RevisionId
  blobs : Blobs
  content : VerifiedContent

structure PreparedRenameExpectation where
  operationId : OperationId
  resourceId : Uuid
  namespaceId : Uuid
  generation : Generation
  parentRevisionId : RevisionId
  currentName : Text

def renameVerificationTexts : VerificationTexts where
  missingProof := "prepared rename object proof is missing; retry the rename"
  sizeIntentChanged := "prepared rename object size intent changed"

def renamedRevisionError (source : RevisionError) : ApiError :=
  { code := .internal, message := .revision source }

def putFile (ext : Externals) (store : ObjectStore) :
    OwnedSkillEntry -> Except ApiError Unit
  | .file _ bytes _ =>
      (store.put (canonicalBlobKey (BlobId.hash ext bytes)) bytes).mapError
        objectStoreApiError
  | .directory _ => .ok ()
  | .symlink _ _ => .ok ()

namespace Registry

variable (self : Registry)

/-- The bytes of a save that was prepared for a rename. -/
def verifiedPreparedRenameContent (store : ObjectStore)
    (authority : UserAuthority) (expectation : PreparedRenameExpectation)
    (db : Db) : Except ApiError (List OwnedSkillEntry) := do
  let operation <- okOr
    (db.findRevisionOperation authority.userId expectation.operationId)
    (ApiError.new .invalidRequest "prepared rename content was not found")
  ensure (decide (operation.state = .prepared) &&
      operation.namespaceId == expectation.namespaceId &&
      operation.resourceId == expectation.resourceId &&
      operation.expectedGeneration == expectation.generation &&
      operation.expectedHeadRevisionId == expectation.parentRevisionId)
    (ApiError.new .generationConflict
      "prepared rename content no longer matches the current workspace")
  let _ <- (validateDeclaredSkillManifest self.ext
    operation.manifest).mapError invalidSnapshot
  let blobs <- manifestBlobs operation.manifest
  ensure (operation.staging.all fun row => (blobs.lookup row.blobId).isSome)
    (ApiError.new .invalidRequest
      "prepared rename contains an unexpected staged object")
  let canonical <- canonicalObjects db renameVerificationTexts
    expectation.namespaceId operation.staging blobs
  let bytes <- blobs.mapM
    (verifiedObject self.ext store renameVerificationTexts operation.staging
      canonical)
  let entries <- ownedEntriesFromManifest operation.manifest bytes
  let snapshot <- (buildDeterministicSkillSnapshot self.ext
    expectation.currentName entries).mapError invalidSnapshot
  ensure (snapshot.manifest == operation.manifest)
    (ApiError.new .invalidRequest
      "prepared rename bytes do not match the declared manifest")
  return entries

def loadStoredEntries (store : ObjectStore) (currentName : Text)
    (stored : StoredSnapshot) : Except ApiError (List OwnedSkillEntry) := do
  let bytes <- (store.get stored.snapshotKey).mapError objectStoreApiError
  (validateSkillSnapshot self.ext currentName stored.manifest bytes).mapError
    storedSnapshotError

/-- Rewrite the name in the skill document, and store the objects of the new
revision. -/
def buildRenamedContent (store : ObjectStore) (currentName newName : Text)
    (entries : List OwnedSkillEntry) (parent : RevisionId)
    (author : AuthorPrincipalId) (operationId : OperationId) :
    Except ApiError RenamedContent := do
  let skillMd <- okOr (skillMdBytes entries)
    (ApiError.new .internal "stored skill has no SKILL.md")
  let renamed <- (rewriteSkillDocumentName self.ext currentName skillMd
    newName).mapError storedSkillError
  let document <- (parseSkillDocument self.ext newName renamed).mapError
    storedSkillError
  let entries := replaceSkillMd renamed entries
  let snapshot <- (buildDeterministicSkillSnapshot self.ext newName
    entries).mapError storedSnapshotError
  let revision <- (Revision.new snapshot.manifest.rootTree [parent] author
    operationId).mapError renamedRevisionError
  entries.forM (putFile self.ext store)
  (store.put (storedSnapshotOf self.ext snapshot).snapshotKey
    snapshot.bytes).mapError objectStoreApiError
  let blobs <- manifestBlobs snapshot.manifest
  return {
    sourceRevisionId := parent
    revisionId := revision.id self.ext
    blobs
    content :=
      { snapshot := storedSnapshotOf self.ext snapshot
        metadata := documentMetadata document } }

end Registry
/-!
## Renaming
-/

/-- A rename of a personal skill between its transactions. -/
structure PendingRename (ext : Externals) where
  authority : UserAuthority
  request : RenameSkillRequest
  owner : Text
  currentName : Text
  trees : List (SkillManifestTree ext)
  renamed : RenamedContent

namespace Db

def canReadWorkspace (db : Db) (user : Uuid) (row : WorkspaceRow) : Bool :=
  !db.quarantined row.resourceId &&
    (decide (row.workspaceUserId = user) ||
      ((db.findResource row.resourceId).any fun resource =>
        !resource.deleted && decide (db.ownerKind resource = some .user) &&
          db.sharedWith row.resourceId user) ||
      db.canReviewSourceResource user row.resourceId)

/-- The skill that a rename reads, with the first workspace it can read. -/
def renameSource (db : Db) (user resourceId : Uuid) :
    Except ApiError (ResourceRow × Text × WorkspaceRow) := do
  let notFound := ApiError.new .notFound "owned skill not found"
  let resource <- okOr
    ((db.findResource resourceId).filter fun row =>
      decide (row.kind = .skill) && !row.deleted &&
        db.canReadResource user resourceId)
    notFound
  let owner <- okOr (db.directory.namespaceById resource.ownerNamespaceId)
    notFound
  let workspace <- okOr
    (db.workspaces.find? fun row =>
      decide (row.resourceId = resourceId) && db.canReadWorkspace user row)
    notFound
  return (resource, owner.slug, workspace)

end Db

namespace Registry

variable (self : Registry)

/-- The entries that a rename starts from. -/
def renameEntries (store : ObjectStore) (authority : UserAuthority)
    (request : RenameSkillRequest) (resource : ResourceRow)
    (workspace : WorkspaceRow) (db : Db) :
    Except ApiError (List OwnedSkillEntry) :=
  match request.preparedRevisionOperationId with
  | some operationId =>
      self.verifiedPreparedRenameContent store authority
        { operationId
          resourceId := request.resourceId
          namespaceId := authority.namespaceId
          generation := resource.generation
          parentRevisionId := workspace.revisionId
          currentName := resource.slug }
        db
  | none => self.loadStoredEntries store resource.slug workspace.snapshot

/-- The first transactions of a rename of a personal skill. -/
def readPersonalRename (store : ObjectStore) (authority : UserAuthority)
    (request : RenameSkillRequest) (db : Db) :
    Except ApiError (PendingRename self.ext) := do
  let (resource, owner, workspace) <- db.renameSource authority.userId
    request.resourceId
  ensure (resource.ownerNamespaceId == authority.namespaceId)
    ownedSkillUnavailable
  let expectedGeneration <- i64TryFrom request.expectedGeneration
    generationOutOfRange
  ensure (resource.generation.value == expectedGeneration)
    (resourceAdvanced resource.generation)
  ensure (resource.slug != request.newName)
    (ApiError.new .invalidRequest "the skill already has that name")
  let entries <- self.renameEntries store authority request resource workspace
    db
  let renamed <- self.buildRenamedContent store resource.slug request.newName
    entries workspace.revisionId authority.authorPrincipalId
    request.operationId
  let trees <- (validateDeclaredSkillManifest self.ext
    renamed.content.snapshot.manifest).mapError storedSnapshotError
  return {
    authority
    request
    owner
    currentName := resource.slug
    trees
    renamed }

variable {self}

/-- Store the revision of a rename. -/
def storeRenamed (session : Session) (resourceId namespaceId : Uuid)
    (author : AuthorPrincipalId) (operationId : OperationId)
    (trees : List (SkillManifestTree self.ext)) (renamed : RenamedContent)
    (db : Db) : Except ApiError Db := do
  db.enforceNamespaceQuota self.limits namespaceId renamed.blobs
  let db <- db.persistCanonicalBlobs renamed.blobs
  let db <- db.persistTrees trees
  let db <- db.persistLifecycleRevision session
    { revisionId := renamed.revisionId
      rootTree := renamed.content.snapshot.manifest.rootTree
      author
      operationId
      parent := some renamed.sourceRevisionId
      blobs := renamed.blobs
      resourceId
      namespaceId }
  db.persistRevisionSnapshot resourceId renamed.revisionId
    renamed.content.snapshot

/-- A renamed release gets the next version. -/
def releaseRenamed (resourceId : Uuid) (version : Generation)
    (author : AuthorPrincipalId) (renamed : RenamedContent) (db : Db) :
    Except ApiError (Generation × Db) := do
  let version <- okOr version.checkedSucc releaseVersionOverflow
  let db <- db.insertRelease
    { resourceId
      version
      revisionId := renamed.revisionId
      rootTreeId := renamed.content.snapshot.manifest.rootTree
      snapshot := renamed.content.snapshot
      authorPrincipalId := author
      message := none
      tags := [] }
  return (version, db)

/-- A public skill releases its renamed revision; a private one keeps its
latest release. -/
def releaseIfPublic (plan : PendingRename self.ext) (resource : ResourceRow)
    (db : Db) : Except ApiError (Option Generation × Db) :=
  match resource.visibility with
  | .priv => .ok (none, db)
  | .pub => do
      let latest <- okOr resource.latestReleaseVersion
        (ApiError.new .internal "public skill is missing its latest release")
      let (version, db) <- releaseRenamed plan.request.resourceId latest
        plan.authority.authorPrincipalId plan.renamed db
      return (some version, db)

/-- Move the skill to its new name. -/
def setRenamed (db : Db) (resourceId : Uuid) (newName : Text)
    (generation : Generation) (latest : Option Generation)
    (metadata : ResourceRow -> SkillMetadata) : Db :=
  { db with
    resources := updateWhere (fun row => row.id = resourceId)
      (fun row =>
        { row with
          slug := newName
          metadata := metadata row
          generation
          latestReleaseVersion := latest })
      db.resources }

/-- The last steps of a rename: the redirect, the record and the wake. -/
def finishRename (session : Session) (authority : UserAuthority)
    (request : RenameSkillRequest) (namespaceId : Uuid) (oldName : Text)
    (outcome : RenameSkillResponse) (db : Db) :
    Except ApiError (RenameSkillResponse × Db) := do
  let db <- db.upsertRedirect session namespaceId oldName request.resourceId
  let db <- db.recordLifecycleOperation
    { userId := authority.userId
      operationId := request.operationId
      requestHash := request.requestHash
      target := request.resourceId
      outcome := .rename outcome }
  let db <- db.consumePreparedRename authority.userId
    request.preparedRevisionOperationId request.resourceId
  return (outcome,
    db.enqueueResourceWake request.resourceId outcome.generation)

def alreadyExists (owner name : Text) : ApiError :=
  ApiError.new .generationConflict
    (String.ofList (locator owner name) ++ " already exists")

/-- Write the renamed revision of a personal skill. -/
def moveToRenamed (plan : PendingRename self.ext) (resource : ResourceRow)
    (db : Db) : Except ApiError (RenameSkillResponse × Db) := do
  let request := plan.request
  let authority := plan.authority
  let content := plan.renamed.content
  let db := db.deleteRedirect (.actor authority.userId) authority.namespaceId
    request.newName
  let db <- storeRenamed (.actor authority.userId) request.resourceId
    authority.namespaceId authority.authorPrincipalId request.operationId
    plan.trees plan.renamed db
  let generation <- nextGeneration resource.generation
  let (version, db) <- releaseIfPublic plan resource db
  let db := setRenamed db request.resourceId request.newName generation
    (version.or resource.latestReleaseVersion) fun _ => content.metadata
  let db := db.setWorkspace request.resourceId authority.userId
    plan.renamed.revisionId generation content
  finishRename (.actor authority.userId) authority request
    authority.namespaceId plan.currentName
    { resourceId := request.resourceId
      oldLocator := locator plan.owner plan.currentName
      locator := locator plan.owner request.newName
      generation := generation.value
      revisionId := plan.renamed.revisionId
      releaseVersion := version.map Generation.value }
    db

/-- The last transaction of a rename of a personal skill.  It does not look at
conflicts. -/
def writePersonalRename (plan : PendingRename self.ext) (db : Db) :
    Except ApiError (RenameSkillResponse × Db) := do
  let request := plan.request
  let authority := plan.authority
  let (resource, _) <- db.lockActiveOwnedSkill authority.userId
    request.resourceId
  ensure (resource.ownerNamespaceId == authority.namespaceId)
    ownedSkillUnavailable
  let expectedGeneration <- i64TryFrom request.expectedGeneration
    generationOutOfRange
  ensure (resource.generation.value == expectedGeneration &&
      resource.slug == plan.currentName)
    (resourceAdvanced resource.generation)
  ensure (!db.slugTakenByOther authority.namespaceId request.resourceId
      request.newName)
    (alreadyExists authority.namespaceSlug request.newName)
  moveToRenamed plan resource db

/-!
## What a rename writes
-/

section Frames

variable {registry : Registry} {db db' : Db}

theorem reachNewBlobs_frame {session : Session}
    {resourceId namespaceId : Uuid} {revision : RevisionId} {blobs : Blobs}
    (h : blobs.foldlM
      (Db.reachNewBlob session resourceId namespaceId revision) db =
        .ok db') :
    exists revisionBlobs resourceBlobs namespaceBlobs canonicalBlobGc,
      db' = { db with
        revisionBlobs, resourceBlobs, namespaceBlobs, canonicalBlobGc } := by
  refine foldlM_invariant
    (P := fun other => exists revisionBlobs resourceBlobs namespaceBlobs
        canonicalBlobGc,
      other = { db with
        revisionBlobs, resourceBlobs, namespaceBlobs, canonicalBlobGc })
    ?_ ⟨_, _, _, _, rfl⟩ h
  rintro s blob t ⟨a, b, c, d, rfl⟩ hstep
  rcases bind_eq_ok.mp hstep with ⟨reached, hreached, hstep⟩
  rcases bind_eq_ok.mp hreached with ⟨_, _, hreached⟩
  cases hreached
  cases session with
  | worker => cases hstep
  | actor user =>
      cases hstep
      exact ⟨_, _, _, _, rfl⟩

theorem storeRenamed_frame {session : Session} {resourceId namespaceId : Uuid}
    {author : AuthorPrincipalId} {operationId : OperationId}
    {trees : List (SkillManifestTree registry.ext)} {renamed : RenamedContent}
    (h : storeRenamed session resourceId namespaceId author operationId trees
      renamed db = .ok db') :
    exists canonicalBlobs canonicalBlobGc merkleTrees treeEntries revisions
        revisionParents revisionBlobs resourceBlobs namespaceBlobs,
      db' = { db with
        canonicalBlobs, canonicalBlobGc, merkleTrees, treeEntries, revisions,
        revisionParents, revisionBlobs, resourceBlobs, namespaceBlobs,
        snapshots := db.snapshots ++
          [{ resourceId
             revisionId := renamed.revisionId
             snapshot := renamed.content.snapshot }] } := by
  rcases bind_eq_ok.mp h with ⟨_, _, h⟩
  rcases bind_eq_ok.mp h with ⟨db₁, hblobs, h⟩
  rcases bind_eq_ok.mp h with ⟨db₂, htrees, h⟩
  rcases bind_eq_ok.mp h with ⟨db₃, hrevision, h⟩
  rcases bind_eq_ok.mp hrevision with ⟨db₄, hinsert, hrevision⟩
  rcases bind_eq_ok.mp hrevision with ⟨db₅, hparent, hreach⟩
  rcases bind_eq_ok.mp hinsert with ⟨_, _, hinsert⟩
  rcases bind_eq_ok.mp hinsert with ⟨_, _, hinsert⟩
  rcases bind_eq_ok.mp hparent with ⟨_, _, hparent⟩
  rcases bind_eq_ok.mp h with ⟨_, _, h⟩
  rcases bind_eq_ok.mp h with ⟨_, _, h⟩
  rcases Db.persistCanonicalBlobs_frame hblobs with ⟨canonical, hdb₁⟩
  rcases Db.persistTrees_frame htrees with ⟨ids, entries, hdb₂⟩
  rcases reachNewBlobs_frame hreach with ⟨a, b, c, d, hdb₃⟩
  cases h
  cases hinsert
  cases hparent
  rw [hdb₃, hdb₂, hdb₁]
  exact ⟨_, _, _, _, _, _, _, _, _, rfl⟩

theorem reachNewBlobs_eq {session : Session}
    {resourceId namespaceId : Uuid} {revision : RevisionId} {blobs : Blobs}
    (h : blobs.foldlM
      (Db.reachNewBlob session resourceId namespaceId revision) db =
        .ok db') :
    exists revisionBlobs canonicalBlobGc,
      db' = { db with
          revisionBlobs
          canonicalBlobGc
          resourceBlobs := db.resourceBlobs.addAll (Db.references blobs)
            fun blob => (resourceId, blob)
          namespaceBlobs := db.namespaceBlobs.addAll (Db.references blobs)
            fun blob => (namespaceId, blob) } ∧
        forall row, row ∈ revisionBlobs <-> row ∈ db.revisionBlobs ∨
          row.revisionId = revision ∧ row.blobId ∈ blobs.map Prod.fst := by
  induction blobs generalizing db with
  | nil =>
      cases h
      exact ⟨_, _, rfl, by simp⟩
  | cons blob rest ih =>
      rw [List.foldlM_cons] at h
      rcases bind_eq_ok.mp h with ⟨middle, hfirst, hrest⟩
      rcases bind_eq_ok.mp hfirst with ⟨reached, hreached, hfirst⟩
      rcases bind_eq_ok.mp hreached with ⟨_, _, hreached⟩
      cases hreached
      cases session with
      | worker => cases hfirst
      | actor user =>
          cases hfirst
          rcases ih hrest with ⟨revisionBlobs, marked, hdb', hrows⟩
          refine ⟨revisionBlobs, marked, hdb', ?_⟩
          intro row
          rw [hrows row]
          rcases row with ⟨id, blobId⟩
          simp only [Db.addReference, List.map_cons, List.mem_cons,
            List.mem_append, RevisionBlobRow.mk.injEq, List.not_mem_nil,
            or_false]
          tauto

/-- A rename stores a new revision on top of its source. -/
theorem storeRenamed_stored {session : Session} {resourceId namespaceId : Uuid}
    {author : AuthorPrincipalId} {operationId : OperationId}
    {trees : List (SkillManifestTree registry.ext)} {renamed : RenamedContent}
    (h : storeRenamed session resourceId namespaceId author operationId trees
      renamed db = .ok db') :
    Db.Stored resourceId namespaceId renamed.revisionId renamed.blobs db db' ∧
      db.findRevision renamed.revisionId = none ∧
        db'.revisionParents = db.revisionParents ++
          [⟨renamed.revisionId, renamed.sourceRevisionId, 0⟩] := by
  rcases bind_eq_ok.mp h with ⟨_, _, h⟩
  rcases bind_eq_ok.mp h with ⟨db₁, hblobs, h⟩
  rcases bind_eq_ok.mp h with ⟨db₂, htrees, h⟩
  rcases bind_eq_ok.mp h with ⟨db₃, hrevision, h⟩
  rcases bind_eq_ok.mp hrevision with ⟨db₄, hinsert, hrevision⟩
  rcases bind_eq_ok.mp hrevision with ⟨db₅, hparent, hreach⟩
  rcases bind_eq_ok.mp hparent with ⟨_, _, hparent⟩
  rcases bind_eq_ok.mp h with ⟨_, _, h⟩
  rcases bind_eq_ok.mp h with ⟨_, _, h⟩
  cases h
  rcases Db.persistCanonicalBlobs_eq_ok hblobs with ⟨blobs, rfl, hstores⟩
  rcases Db.persistTrees_frame htrees with ⟨ids, entries, rfl⟩
  rcases Db.insertRevision_eq_ok hinsert with ⟨rfl, hnew⟩
  cases hparent
  rcases reachNewBlobs_eq hreach with ⟨revisionBlobs, marked, rfl, hrows⟩
  have hrevisions := Db.storesRevision_append
    { revisionId := renamed.revisionId
      rootTreeId := renamed.content.snapshot.manifest.rootTree
      authorPrincipalId := author
      operationId } db.revisions
  exact ⟨⟨hstores, hrevisions, rfl, rfl, hrows⟩, hnew, rfl⟩

theorem consumePreparedRename_frame {user resourceId : Uuid}
    {operationId : Option OperationId}
    (h : db.consumePreparedRename user operationId resourceId = .ok db') :
    exists rows, db' = { db with revisionOperations := rows } ∧
      forall row, row ∈ rows -> row ∈ db.revisionOperations := by
  unfold Db.consumePreparedRename at h
  split at h
  · cases h
    exact ⟨_, rfl, fun row hrow => hrow⟩
  · rcases bind_eq_ok.mp h with ⟨_, _, h⟩
    cases h
    exact ⟨_, rfl, fun row hrow => (mem_deleteWhere.mp hrow).1⟩

/-- The redirects of a name lead to its target, and the others stay. -/
def Redirected (kind : ResourceKind) (namespaceId : Uuid) (slug : Text)
    (target : Uuid) (before after : List RedirectRow) : Prop :=
  forall row, row ∈ after ->
    row ∈ before ∨ row = ⟨namespaceId, kind, slug, target⟩

theorem Redirected.append {kind : ResourceKind} {namespaceId target : Uuid}
    {slug : Text} {rows : List RedirectRow} :
    Redirected kind namespaceId slug target rows
      (rows ++ [⟨namespaceId, kind, slug, target⟩]) := by
  intro row hrow
  rcases List.mem_append.mp hrow with hold | hnew
  · exact .inl hold
  · exact .inr (List.mem_singleton.mp hnew)

theorem Redirected.update {kind : ResourceKind} {namespaceId target : Uuid}
    {slug : Text} {rows : List RedirectRow} {p : RedirectRow -> Bool}
    (hp : forall row, p row = true -> row.namespaceId = namespaceId ∧
      row.kind = kind ∧ row.oldSlug = slug) :
    Redirected kind namespaceId slug target rows
      (updateWhere p (fun row => { row with targetResourceId := target })
        rows) := by
  intro row hrow
  rcases mem_updateWhere.mp hrow with ⟨old, hold, rfl⟩
  split
  · rename_i hat
    rcases old with ⟨a, b, c, d⟩
    rcases hp _ hat with ⟨rfl, rfl, rfl⟩
    exact .inr rfl
  · exact .inl hold

theorem upsertRedirect_eq_ok {session : Session} {namespaceId target : Uuid}
    {slug : Text}
    (h : db.upsertRedirect session namespaceId slug target = .ok db') :
    exists redirects, db' = { db with redirects } ∧
      Redirected .skill namespaceId slug target db.redirects redirects := by
  unfold Db.upsertRedirect at h
  split at h
  · cases h
    exact ⟨_, rfl, .append⟩
  · rcases bind_eq_ok.mp h with ⟨_, _, h⟩
    cases h
    exact ⟨_, rfl, .update fun row hat => by
      simpa [Db.redirectAt] using hat⟩

theorem finishRename_eq_ok {session : Session} {authority : UserAuthority}
    {request : RenameSkillRequest} {namespaceId : Uuid} {oldName : Text}
    {outcome answer : RenameSkillResponse}
    (h : finishRename session authority request namespaceId oldName outcome
      db = .ok (answer, db')) :
    exists redirects lifecycleOperations revisionOperations,
      db' = ({ db with
          redirects, lifecycleOperations, revisionOperations } :
        Db).enqueueResourceWake request.resourceId outcome.generation ∧
      (forall row, row ∈ revisionOperations ->
        row ∈ db.revisionOperations) ∧
      Redirected .skill namespaceId oldName request.resourceId db.redirects
        redirects := by
  rcases bind_eq_ok.mp h with ⟨db₁, hredirect, h⟩
  rcases bind_eq_ok.mp h with ⟨db₂, hrecord, h⟩
  rcases bind_eq_ok.mp h with ⟨db₃, hconsume, h⟩
  rcases bind_eq_ok.mp hrecord with ⟨operations, _, hrecord⟩
  rcases upsertRedirect_eq_ok hredirect with ⟨redirects, hdb₁, hredirected⟩
  rcases consumePreparedRename_frame hconsume with ⟨rows, hdb₃, hrows⟩
  cases h
  cases hrecord
  rw [hdb₁] at hrows
  rw [hdb₃, hdb₁]
  exact ⟨redirects, operations, rows, rfl, hrows, hredirected⟩

theorem releaseRenamed_eq_ok {resourceId : Uuid} {latest version : Generation}
    {author : AuthorPrincipalId} {renamed : RenamedContent}
    (h : releaseRenamed resourceId latest author renamed db =
      .ok (version, db')) :
    latest.checkedSucc = some version ∧
      exists row : ReleaseRow,
        db' = { db with releases := db.releases ++ [row] } ∧
          row.resourceId = resourceId ∧ row.version = version ∧
            row.revisionId = renamed.revisionId ∧
              db.findRelease resourceId version = none := by
  rcases bind_eq_ok.mp h with ⟨next, hnext, h⟩
  rcases bind_eq_ok.mp h with ⟨stored, hstored, h⟩
  rcases Db.insertRelease_eq_ok hstored with ⟨hdb', hfree⟩
  cases h
  exact ⟨okOr_eq_ok.mp hnext, _, hdb', rfl, rfl, rfl, hfree⟩

end Frames

/-- The releases of a skill after a rename: a new one, or none. -/
def RenamedRelease (resourceId : Uuid) (latest version : Option Generation)
    (revision : RevisionId) (before releases : List ReleaseRow) : Prop :=
  (version = none ∧ releases = before) ∨
    exists old new row, latest = some old ∧ version = some new ∧
      old.checkedSucc = some new ∧ releases = before ++ [row] ∧
        row.resourceId = resourceId ∧ row.version = new ∧
          row.revisionId = revision

/-- What a rename of a personal skill writes. -/
structure RenameWritten {registry : Registry}
    (plan : PendingRename registry.ext) (resource : ResourceRow)
    (db db' : Db) : Prop where
  tables : exists stored generation version releases redirects
      lifecycleOperations revisionOperations,
    storeRenamed (.actor plan.authority.userId) plan.request.resourceId
        plan.authority.namespaceId plan.authority.authorPrincipalId
        plan.request.operationId plan.trees plan.renamed
        (db.deleteRedirect (.actor plan.authority.userId)
          plan.authority.namespaceId plan.request.newName) = .ok stored ∧
      RenamedRelease plan.request.resourceId resource.latestReleaseVersion
        version plan.renamed.revisionId db.releases releases ∧
      (resource.visibility = .priv -> version = none) ∧
      (forall row, row ∈ revisionOperations ->
        row ∈ db.revisionOperations) ∧
      db' =
        ({ stored with
          releases
          resources := (setRenamed stored plan.request.resourceId
            plan.request.newName generation
            (version.or resource.latestReleaseVersion)
            fun _ => plan.renamed.content.metadata).resources
          workspaces := (stored.setWorkspace plan.request.resourceId
            plan.authority.userId plan.renamed.revisionId generation
            plan.renamed.content).workspaces
          redirects
          lifecycleOperations
          revisionOperations } : Db).enqueueResourceWake
            plan.request.resourceId generation.value
  redirected : Redirected .skill plan.authority.namespaceId plan.currentName
    plan.request.resourceId
    (db.deleteRedirect (.actor plan.authority.userId)
      plan.authority.namespaceId plan.request.newName).redirects db'.redirects

section Written

variable {registry : Registry} {plan : PendingRename registry.ext}
  {resource : ResourceRow} {db db' : Db} {outcome : RenameSkillResponse}

theorem releaseIfPublic_eq_ok {version : Option Generation}
    (h : releaseIfPublic plan resource db = .ok (version, db')) :
    (resource.visibility = .priv -> version = none) ∧
      exists releases, db' = { db with releases } ∧
        RenamedRelease plan.request.resourceId resource.latestReleaseVersion
          version plan.renamed.revisionId db.releases releases := by
  unfold releaseIfPublic at h
  split at h
  · cases h
    exact ⟨fun _ => rfl, db.releases, rfl, .inl ⟨rfl, rfl⟩⟩
  · rename_i hpublic
    rcases bind_eq_ok.mp h with ⟨latest, hlatest, h⟩
    rcases bind_eq_ok.mp h with ⟨⟨next, stored⟩, hstored, h⟩
    rcases releaseRenamed_eq_ok hstored with
      ⟨hnext, row, hdb', hid, hversion, hrevision, _⟩
    cases h
    refine ⟨by simp [hpublic], _, hdb', .inr ?_⟩
    exact ⟨latest, next, row, okOr_eq_ok.mp hlatest, rfl, hnext, rfl, hid,
      hversion, hrevision⟩

theorem moveToRenamed_eq_ok
    (h : moveToRenamed plan resource db = .ok (outcome, db')) :
    RenameWritten plan resource db db' := by
  rcases bind_eq_ok.mp h with ⟨stored, hstored, h⟩
  rcases bind_eq_ok.mp h with ⟨generation, _, h⟩
  rcases bind_eq_ok.mp h with ⟨⟨version, released⟩, hreleased, h⟩
  rcases releaseIfPublic_eq_ok hreleased with
    ⟨hprivate, releases, hreleases, hrenamed⟩
  rcases finishRename_eq_ok h with
    ⟨redirects, lifecycleOperations, revisionOperations, hdb', hrows,
      hredirected⟩
  rcases storeRenamed_frame hstored with ⟨_, _, _, _, _, _, _, _, _, hframe⟩
  have hbefore : stored.releases = db.releases := by
    rw [hframe]
    rfl
  have hoperations : stored.revisionOperations = db.revisionOperations := by
    rw [hframe]
    rfl
  refine ⟨⟨stored, generation, version, releases, redirects,
    lifecycleOperations, revisionOperations, hstored, ?_, hprivate, ?_, ?_⟩,
    ?_⟩
  · rw [hbefore] at hrenamed
    exact hrenamed
  · intro row hrow
    have hold := hrows row hrow
    rw [hreleases] at hold
    rw [← hoperations]
    exact hold
  · rw [hdb', hreleases]
    rfl
  · rw [hreleases, hframe] at hredirected
    rw [hdb']
    exact hredirected

/-- What a rename finds in its last transaction. -/
structure RenameFound (plan : PendingRename registry.ext)
    (resource : ResourceRow) (db : Db) : Prop where
  found : db.findResource plan.request.resourceId = some resource
  skill : resource.kind = .skill
  live : resource.deleted = false
  managed : db.canManageResource plan.authority.userId
    plan.request.resourceId = true
  owned : resource.ownerNamespaceId = plan.authority.namespaceId
  current : resource.slug = plan.currentName
  unused : db.slugTakenByOther plan.authority.namespaceId
    plan.request.resourceId plan.request.newName = false

theorem lockActiveOwnedSkill_eq_ok {user resourceId : Uuid} {owner : Text}
    (h : db.lockActiveOwnedSkill user resourceId = .ok (resource, owner)) :
    db.findResource resourceId = some resource ∧ resource.kind = .skill ∧
      resource.deleted = false ∧
        db.canManageResource user resourceId = true := by
  rcases bind_eq_ok.mp h with ⟨row, hrow, h⟩
  rcases bind_eq_ok.mp h with ⟨space, _, h⟩
  cases h
  have hfound := Option.filter_eq_some_iff.mp (okOr_eq_ok.mp hrow)
  have hlive := hfound.2
  simp only [Bool.and_eq_true, decide_eq_true_eq, Bool.not_eq_true'] at hlive
  exact ⟨hfound.1, hlive.1.1.1, hlive.1.1.2, hlive.2⟩

theorem writePersonalRename_eq_ok
    (h : writePersonalRename plan db = .ok (outcome, db')) :
    exists resource, RenameFound plan resource db ∧
      RenameWritten plan resource db db' := by
  rcases bind_eq_ok.mp h with ⟨⟨resource, owner⟩, hlocked, h⟩
  rcases bind_eq_ok.mp h with ⟨_, howner, h⟩
  rcases bind_eq_ok.mp h with ⟨_, _, h⟩
  rcases bind_eq_ok.mp h with ⟨_, hcurrent, h⟩
  rcases bind_eq_ok.mp h with ⟨_, hunused, h⟩
  rcases lockActiveOwnedSkill_eq_ok hlocked with
    ⟨hfound, hkind, hlive, hmanaged⟩
  simp only [ensure_eq_ok, Bool.and_eq_true, beq_iff_eq,
    Bool.not_eq_true'] at howner hcurrent hunused
  exact ⟨resource, ⟨hfound, hkind, hlive, hmanaged, howner, hcurrent.2,
    hunused⟩, moveToRenamed_eq_ok h⟩

end Written

/-!
## Unpublishing
-/

variable (self)

/-- Hide a published skill.  Its releases stay. -/
def hideSkill (request : ResourceLifecycleRequest) (authority : UserAuthority)
    (db : Db) : Except ApiError (UnpublishSkillResponse × Db) := do
  let target <- db.authorizeResourcePublish authority request.resourceId
  let (resource, owner) <- db.lockActiveOwnedSkill authority.userId
    request.resourceId
  ensure (resource.ownerNamespaceId == target.namespaceId)
    ownedSkillUnavailable
  let expectedGeneration <- i64TryFrom request.expectedGeneration
    generationOutOfRange
  ensure (resource.generation.value == expectedGeneration)
    (resourceAdvanced resource.generation)
  ensure resource.latestReleaseVersion.isSome
    (ApiError.new .invalidRequest "the skill has never been published")
  ensure (decide (resource.visibility = .pub))
    (ApiError.new .invalidRequest "the skill is already unpublished")
  let generation <- nextGeneration resource.generation
  let outcome : UnpublishSkillResponse :=
    { resourceId := request.resourceId
      locator := locator owner resource.slug
      generation := generation.value }
  let db := { db with
    resources := updateWhere (fun row => row.id = request.resourceId)
      (fun row => { row with visibility := .priv, generation }) db.resources }
  let db <- db.recordLifecycleOperation
    { userId := authority.userId
      operationId := request.operationId
      requestHash := request.requestHash
      target := request.resourceId
      outcome := .unpublish outcome }
  return (outcome,
    db.enqueueResourceWake request.resourceId generation.value)

def unpublishSkill (userId : Uuid) (request : ResourceLifecycleRequest)
    (db : Db) : Except ApiError (UnpublishSkillResponse × Db) := do
  let authority <- db.directory.userAuthority userId
  checkLifecycleHash request.requestHash
    (self.hashes.unpublishSkill request.toResourceLifecycleRequestHashInput)
  let replay <- db.replayLifecycleOperation LifecycleOutcome.unpublish?
    authority.userId request.operationId request.requestHash
    request.resourceId
  match replay with
  | some outcome => return (outcome, db)
  | none => hideSkill request authority db

variable {self} {db db' : Db}

/-- Unpublishing changes the visibility and the generation of the skill. -/
theorem unpublishSkill_eq_ok {userId : Uuid}
    {request : ResourceLifecycleRequest} {outcome : UnpublishSkillResponse}
    (h : self.unpublishSkill userId request db = .ok (outcome, db')) :
    db' = db ∨ exists generation lifecycleOperations,
      db' = ({ db with
          resources := updateWhere (fun row => row.id = request.resourceId)
            (fun row => { row with visibility := .priv, generation })
            db.resources
          lifecycleOperations } : Db).enqueueResourceWake request.resourceId
            generation.value := by
  rcases bind_eq_ok.mp h with ⟨authority, _, h⟩
  rcases bind_eq_ok.mp h with ⟨_, _, h⟩
  rcases bind_eq_ok.mp h with ⟨replay, _, h⟩
  split at h
  · cases h
    exact .inl rfl
  · rcases bind_eq_ok.mp h with ⟨target, _, h⟩
    rcases bind_eq_ok.mp h with ⟨⟨resource, owner⟩, _, h⟩
    rcases bind_eq_ok.mp h with ⟨_, _, h⟩
    rcases bind_eq_ok.mp h with ⟨_, _, h⟩
    rcases bind_eq_ok.mp h with ⟨_, _, h⟩
    rcases bind_eq_ok.mp h with ⟨_, _, h⟩
    rcases bind_eq_ok.mp h with ⟨_, _, h⟩
    rcases bind_eq_ok.mp h with ⟨generation, _, h⟩
    rcases bind_eq_ok.mp h with ⟨recorded, hrecorded, h⟩
    rcases bind_eq_ok.mp hrecorded with ⟨operations, _, hrecorded⟩
    cases hrecorded
    cases h
    exact .inr ⟨generation, operations, rfl⟩

end Registry
end Denju
