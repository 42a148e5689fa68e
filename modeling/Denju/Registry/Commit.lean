import Denju.Registry.Workspace

/-!
# Committing a private save

A commit reads in one transaction, verifies the objects of the save, and writes
in a second one.  Between the two it holds what it has read.
-/

namespace Denju

open Lib

/-!
## Verifying the objects of a save

The bytes of every blob of the manifest, from the staged object or from the
canonical one, checked against the identity and the size of the blob.
-/

/-- The texts that differ between the operations that verify objects. -/
structure VerificationTexts where
  missingProof : String
  sizeIntentChanged : String

/-- The canonical object of a blob that the namespace reaches. -/
def canonicalObject (db : Db) (texts : VerificationTexts) (namespaceId : Uuid)
    (blob : BlobId × Nat) : Except ApiError (BlobId × Text) := do
  let row <- okOr
    (if db.namespaceReaches namespaceId blob.1 then
      db.canonicalBlobs.find? fun row => row.blobId = blob.1
    else none)
    (ApiError.new .invalidRequest texts.missingProof)
  ensure (row.sizeBytes == blob.2)
    (ApiError.new .internal "canonical object size is invalid")
  return (blob.1, row.objectKey)

def canonicalObjects (db : Db) (texts : VerificationTexts) (namespaceId : Uuid)
    (staging : List StagingRow) (blobs : Blobs) :
    Except ApiError (List (BlobId × Text)) :=
  (blobs.filter fun blob =>
    !staging.any fun row => row.blobId = blob.1).mapM
      (canonicalObject db texts namespaceId)

/-- The key of the object that holds a blob. -/
def objectKey (texts : VerificationTexts) (staging : List StagingRow)
    (canonical : List (BlobId × Text)) (blob : BlobId × Nat) :
    Except ApiError Text :=
  match staging.find? fun row => row.blobId = blob.1 with
  | some row => do
      ensure (row.sizeBytes == blob.2)
        (ApiError.new .invalidRequest texts.sizeIntentChanged)
      return row.stagingKey
  | none =>
      okOr (canonical.lookup blob.1)
        (ApiError.new .internal "canonical object proof disappeared")

def verifiedObject (ext : Externals) (store : ObjectStore)
    (texts : VerificationTexts) (staging : List StagingRow)
    (canonical : List (BlobId × Text)) (blob : BlobId × Nat) :
    Except ApiError (BlobId × Bytes) := do
  let key <- objectKey texts staging canonical blob
  let bytes <- (store.get key).mapError objectStoreApiError
  verifyBlob ext blob.1 blob.2 bytes
  return (blob.1, bytes)

def putStaged (store : ObjectStore) (bytes : List (BlobId × Bytes))
    (row : StagingRow) : Except ApiError Unit := do
  let bytes <- okOr (bytes.lookup row.blobId)
    (ApiError.new .internal "verified staged blob disappeared")
  (store.put (canonicalBlobKey row.blobId) bytes).mapError objectStoreApiError

/-- What a skill document says about itself. -/
def documentMetadata (document : SkillDocument) : SkillMetadata where
  description := document.frontmatter.description
  license := document.frontmatter.license
  compatibility := document.frontmatter.compatibility

/-- The rebuilt archive of verified entries, and the metadata of its document. -/
structure VerifiedContent where
  snapshot : StoredSnapshot
  metadata : SkillMetadata

def storedSnapshotOf (ext : Externals) (snapshot : DeterministicSkillSnapshot) :
    StoredSnapshot where
  manifest := snapshot.manifest
  snapshotKey := snapshotKeyOf (BlobId.hash ext snapshot.bytes)
  snapshotSha256 := BlobId.hash ext snapshot.bytes
  snapshotSize := snapshot.bytes.length

def invalidSnapshot (source : SnapshotError) : ApiError :=
  { code := .invalidRequest, message := .snapshot source }

def invalidSkill (source : SkillValidationError) : ApiError :=
  { code := .invalidRequest, message := .skill source }

/-- Rebuild the archive from verified bytes and compare it with the manifest. -/
def rebuildSnapshot (ext : Externals) (name : Text) (manifest : SkillManifest)
    (bytes : List (BlobId × Bytes)) :
    Except ApiError (DeterministicSkillSnapshot × SkillMetadata) := do
  let entries <- ownedEntriesFromManifest manifest bytes
  let snapshot <- (buildDeterministicSkillSnapshot ext name entries).mapError
    invalidSnapshot
  ensure (snapshot.manifest == manifest)
    (ApiError.new .invalidRequest
      "verified object bytes do not match the declared manifest")
  let skillMd <- okOr (skillMdBytes entries)
    (ApiError.new .invalidRequest "skill is missing SKILL.md")
  let document <- (parseSkillDocument ext name skillMd).mapError invalidSkill
  return (snapshot, documentMetadata document)

/-!
## Committing a save
-/

def decodeRevisionOutcome (outcome : Option PrivateRevisionCommitResponse) :
    Except ApiError PrivateRevisionCommitResponse :=
  okOr outcome
    (ApiError.new .internal "completed private revision has no stored outcome")

/-- A commit between its two transactions. -/
structure PendingCommit (ext : Externals) where
  authority : UserAuthority
  request : CommitRequest
  operation : RevisionOperationRow
  trees : List (SkillManifestTree ext)
  blobs : Blobs
  parents : List RevisionId
  content : VerifiedContent

namespace Db

/-- Only the merge of an unresolved conflict may be committed beside it. -/
def checkActiveConflict (db : Db) (user : Uuid)
    (operation : RevisionOperationRow) (parents : List RevisionId)
    (forkSync : Option ValidatedForkSync) : Except ApiError Unit :=
  match db.activeConflict operation.resourceId user with
  | none => .ok ()
  | some conflict =>
      ensure (forkSync.isNone && parents.length == 2 &&
          operation.operationId.asUuid == conflict.conflictId)
        (ApiError.new .generationConflict
          "private workspace has an unresolved content conflict; reconcile it before saving another revision")

/-- The checks of a commit against the head and the conflicts. -/
def checkCommitHead (db : Db) (authority : UserAuthority)
    (operation : RevisionOperationRow) (parents : List RevisionId)
    (forkSync : Option ValidatedForkSync) (workspace : WorkspaceRow) :
    Except ApiError Unit := do
  let headMatches :=
    workspace.revisionId == operation.expectedHeadRevisionId
  db.checkActiveConflict authority.userId operation parents forkSync
  ensure (!headMatches ||
      workspace.generation == operation.expectedGeneration)
    (ApiError.new .generationConflict
      ("private workspace advanced to generation " ++
        toString workspace.generation.value))
  ensure (headMatches || forkSync.isNone)
    (ApiError.new .generationConflict
      "fork head advanced while syncing upstream; fetch the current fork and retry")
  ensure (headMatches || parents.length == 1)
    (ApiError.new .generationConflict
      "merge target advanced again; reconcile the new head before retrying")
  if headMatches && parents.length == 2 then
    match forkSync with
    | some sync => do
        ensure (decide (sync.upstreamRevision ∈ parents))
          (ApiError.new .invalidRequest
            "stored fork sync parents do not match the selected upstream revision")
        db.validateForkSync authority.userId authority.namespaceId
          operation.resourceId sync
    | none =>
        db.validateMergeConflict operation.operationId.asUuid
          operation.resourceId authority.userId parents

/-- Move the head of a workspace. -/
def setWorkspace (db : Db) (resourceId user : Uuid) (revisionId : RevisionId)
    (generation : Generation) (content : VerifiedContent) : Db :=
  { db with
    workspaces := updateWhere
      (fun row => row.resourceId = resourceId ∧ row.workspaceUserId = user)
      (fun row =>
        { row with
          revisionId
          generation
          metadata := content.metadata
          snapshot := content.snapshot })
      db.workspaces }

def setResourceMetadata (db : Db) (resourceId : Uuid)
    (generation : Generation) (metadata : SkillMetadata) : Db :=
  { db with
    resources := updateWhere (fun row => row.id = resourceId)
      (fun row => { row with generation, metadata }) db.resources }

def finishForkSync (db : Db) (resourceId : Uuid) (sync : ValidatedForkSync) :
    Db :=
  { db with
    forks := updateWhere
      (fun row => row.resourceId = resourceId ∧
        row.syncBaseRevisionId = sync.expectedBase)
      (fun row => { row with syncBaseRevisionId := sync.upstreamRevision })
      db.forks }

def finishForkPromotion (db : Db) (resourceId : Uuid)
    (revisionId : RevisionId) : Db :=
  { db with
    forks := updateWhere
      (fun row => row.resourceId = resourceId ∧ row.promotionPending = true ∧
        row.promotionHeadRevisionId = some revisionId)
      (fun row => { row with promotionPending := false }) db.forks }

/-- Record the answer of a prepared save. -/
def finishRevisionOperation (db : Db) (user : Uuid)
    (operationId : OperationId) (state : PrivateRevisionOperationState)
    (outcome : PrivateRevisionCommitResponse) : Db :=
  { db with
    revisionOperations := updateWhere
      (fun row => row.userId = user ∧ row.operationId = operationId ∧
        row.state = .prepared)
      (fun row => { row with state, outcome := some outcome })
      db.revisionOperations }

end Db

def resourceGenerationOverflow : ApiError :=
  ApiError.new .internal "resource generation overflow"

def workspaceGenerationOverflow : ApiError :=
  ApiError.new .internal "workspace generation overflow"

def revisionVerificationTexts : VerificationTexts where
  missingProof := "required object proof is missing; rerun revision prepare"
  sizeIntentChanged := "staged object size intent changed"

/-- What a commit leaves behind its storage: the recorded state, the answer,
the resource generation of the wake, and the database. -/
structure CommitEffect where
  state : PrivateRevisionOperationState
  outcome : PrivateRevisionCommitResponse
  wakeGeneration : Generation
  db : Db

namespace Registry

variable (self : Registry)

/-- Verify the objects of a prepared save. -/
def verifyPrivateRevision (store : ObjectStore) (authority : UserAuthority)
    (request : CommitRequest) (operation : RevisionOperationRow) (db : Db) :
    Except ApiError (PendingCommit self.ext) := do
  let resourceAuthority <-
    db.authorizeResourcePublish authority operation.resourceId
  ensure (operation.namespaceId == resourceAuthority.namespaceId)
    (ApiError.new .unauthorized "private revision namespace is unavailable")
  let trees <-
    (validateDeclaredSkillManifest self.ext operation.manifest).mapError
      invalidSnapshot
  let blobs <- manifestBlobs operation.manifest
  let canonical <- canonicalObjects db revisionVerificationTexts
    operation.namespaceId operation.staging blobs
  let bytes <- blobs.mapM
    (verifiedObject self.ext store revisionVerificationTexts
      operation.staging canonical)
  let resource <- okOr
    ((db.findResource operation.resourceId).filter fun row =>
      decide (row.kind = .skill) && !row.deleted)
    (ApiError.new .notFound "private skill not found")
  ensure (resource.ownerNamespaceId == operation.namespaceId)
    (ApiError.new .unauthorized "private skill is unavailable")
  let (snapshot, metadata) <- rebuildSnapshot self.ext
    (operation.historicalSkillName.getD resource.slug) operation.manifest
    bytes
  operation.staging.forM (putStaged store bytes)
  (store.put (storedSnapshotOf self.ext snapshot).snapshotKey
    snapshot.bytes).mapError objectStoreApiError
  return {
    authority
    request
    operation
    trees
    blobs
    parents := operation.parents
    content := { snapshot := storedSnapshotOf self.ext snapshot, metadata } }

/-- The first transaction of a commit and the verification of its objects. -/
def readPrivateRevision (store : ObjectStore) (userId : Uuid)
    (request : CommitRequest) (db : Db) :
    Except ApiError
      (PrivateRevisionCommitResponse ⊕ PendingCommit self.ext) := do
  let authority <- db.directory.userAuthority userId
  let operation <- okOr
    (db.findRevisionOperation authority.userId request.operationId)
    (ApiError.new .notFound "private revision not found")
  ensureRequestHash operation.requestHash request.requestHash
  if operation.state = .prepared then
    let plan <- self.verifyPrivateRevision store authority request operation db
    return .inr plan
  else
    let outcome <- decodeRevisionOutcome operation.outcome
    return .inl outcome

variable {self}

/-- The generation of the resource after a move; a team skill keeps its own. -/
def nextResourceGeneration (isTeam : Bool) (resource : ResourceRow) :
    Except ApiError Generation :=
  if isTeam then .ok resource.generation
  else okOr resource.generation.checkedSucc resourceGenerationOverflow

/-- A merge resolves the conflict that its operation is named after. -/
def resolveMerge (plan : PendingCommit self.ext)
    (forkSync : Option ValidatedForkSync) (db : Db) : Except ApiError Db :=
  if plan.parents.length == 2 && forkSync.isNone then
    db.resolveWorkspaceConflict plan.operation.operationId.asUuid
      plan.operation.resourceId plan.authority.userId plan.operation.revisionId
  else .ok db

/-- The head of the workspace moves to the saved revision. -/
def advanceWorkspace (plan : PendingCommit self.ext)
    (forkSync : Option ValidatedForkSync) (isTeam : Bool)
    (resource : ResourceRow) (workspace : WorkspaceRow) (db : Db) :
    Except ApiError CommitEffect := do
  let operation := plan.operation
  let user := plan.authority.userId
  let nextResource <- nextResourceGeneration isTeam resource
  let nextWorkspace <-
    okOr workspace.generation.checkedSucc workspaceGenerationOverflow
  let db :=
    if isTeam then db
    else db.setResourceMetadata operation.resourceId nextResource
      plan.content.metadata
  let db := db.setWorkspace operation.resourceId user operation.revisionId
    nextWorkspace plan.content
  let db <- resolveMerge plan forkSync db
  let db := match forkSync with
    | none => db
    | some sync => db.finishForkSync operation.resourceId sync
  return {
    state := .advanced
    outcome := .advanced
      { resourceId := operation.resourceId
        generation := nextWorkspace.value
        revisionId := operation.revisionId
        description := plan.content.metadata.description
        manifest := operation.manifest }
    wakeGeneration := nextResource
    db := db.finishForkPromotion operation.resourceId operation.revisionId }

/-- The head stays, and the saved revision becomes the other head of a
conflict. -/
def divergeWorkspace (newConflictId : Uuid) (plan : PendingCommit self.ext)
    (resource : ResourceRow) (workspace : WorkspaceRow) (db : Db) :
    Except ApiError CommitEffect := do
  let operation := plan.operation
  let (conflict, db) <- db.recordWorkspaceConflict newConflictId
    operation.resourceId plan.authority.userId
    operation.expectedHeadRevisionId operation.revisionId workspace.revisionId
    workspace.generation
  return {
    state := .diverged
    outcome := .diverged operation.resourceId operation.revisionId conflict
    wakeGeneration := resource.generation
    db }

/-- Store the objects of a save. -/
def storeCommit (plan : PendingCommit self.ext)
    (author : AuthorPrincipalId) (db : Db) : Except ApiError Db := do
  let operation := plan.operation
  db.enforceNamespaceQuota self.limits operation.namespaceId plan.blobs
  let db <- db.persistCanonicalBlobs plan.blobs
  let db <- db.persistTrees plan.trees
  db.persistPrivateRevisionStorage (.actor plan.authority.userId)
    { resourceId := operation.resourceId
      namespaceId := operation.namespaceId
      authorPrincipalId := author
      operationId := operation.operationId
      revisionId := operation.revisionId
      parents := plan.parents
      rootTreeId := operation.manifest.rootTree
      blobs := plan.blobs
      snapshot := plan.content.snapshot }

/-- A save whose expected head is the head moves it; any other diverges. -/
def moveWorkspace (newConflictId : Uuid) (plan : PendingCommit self.ext)
    (forkSync : Option ValidatedForkSync) (isTeam : Bool)
    (resource : ResourceRow) (workspace : WorkspaceRow) (db : Db) :
    Except ApiError CommitEffect :=
  if workspace.revisionId = plan.operation.expectedHeadRevisionId then
    advanceWorkspace plan forkSync isTeam resource workspace db
  else
    divergeWorkspace newConflictId plan resource workspace db

/-- Write a save that is still prepared. -/
def writePreparedRevision (newConflictId : Uuid)
    (plan : PendingCommit self.ext) (locked : RevisionOperationRow)
    (isTeam : Bool) (resource : ResourceRow) (workspace : WorkspaceRow)
    (db : Db) : Except ApiError (PrivateRevisionCommitResponse × Db) := do
  let operation := plan.operation
  let user := plan.authority.userId
  db.checkHistoricalSkillName operation.resourceId locked.historicalSkillName
  db.checkCommitHead plan.authority operation plan.parents locked.forkSync
    workspace
  let stored <- storeCommit plan
    (locked.revisionAuthorPrincipalId.getD plan.authority.authorPrincipalId) db
  let effect <- moveWorkspace newConflictId plan locked.forkSync isTeam
    resource workspace stored
  let db := effect.db.finishRevisionOperation user plan.request.operationId
    effect.state effect.outcome
  return (effect.outcome,
    if isTeam then db
    else db.enqueueResourceWake operation.resourceId
      effect.wakeGeneration.value)

/-- The second transaction of a commit. -/
def writePrivateRevision (newConflictId : Uuid)
    (plan : PendingCommit self.ext) (db : Db) :
    Except ApiError (PrivateRevisionCommitResponse × Db) := do
  let operation := plan.operation
  let user := plan.authority.userId
  let resourceAuthority <-
    db.authorizeResourcePublish plan.authority operation.resourceId
  ensure (resourceAuthority.namespaceId == operation.namespaceId)
    (ApiError.new .unauthorized "private revision namespace is unavailable")
  let (resource, workspace) <- db.currentWorkspace operation.resourceId user
    "private skill not found"
  ensure (resource.ownerNamespaceId == operation.namespaceId)
    (ApiError.new .unauthorized "private skill is unavailable")
  let locked <- okOr (db.findRevisionOperation user plan.request.operationId)
    (ApiError.new .internal "revision operation disappeared")
  ensureRequestHash locked.requestHash plan.request.requestHash
  if locked.state = .prepared then
    writePreparedRevision newConflictId plan locked resourceAuthority.isTeam
      resource workspace db
  else
    let outcome <- decodeRevisionOutcome locked.outcome
    return (outcome, db)

variable (self)

/-- A commit whose two transactions follow each other. -/
def commitPrivateRevision (store : ObjectStore) (newConflictId userId : Uuid)
    (request : CommitRequest) (db : Db) :
    Except ApiError (PrivateRevisionCommitResponse × Db) := do
  let read <- self.readPrivateRevision store userId request db
  match read with
  | .inl outcome => return (outcome, db)
  | .inr plan => writePrivateRevision newConflictId plan db

end Registry
end Denju
