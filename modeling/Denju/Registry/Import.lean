import Denju.Registry.Branches

/-!
# Importing a skill

An import is prepared and committed like a save, and creates the resource, its
first revision and the workspace of the importing user.
-/

namespace Denju

open Lib

def locatorText (owner name : Text) : Text :=
  "@".toList ++ owner ++ "/".toList ++ name

def invalidImportSkill (source : SkillValidationError) : ApiError :=
  { code := .invalidRequest, message := .skill source }

def parseForkIntent (fork : ValidatedFork) : Except ApiError Unit :=
  match fork.historicalSkillName with
  | none => .ok ()
  | some name => do
      (validateSkillName name).mapError invalidImportSkill
      ensure fork.promotionHeadRevisionId.isSome
        (ApiError.new .invalidRequest
          "historical fork content requires an explicit promotion head")

def importVerificationTexts : VerificationTexts where
  missingProof := "required object proof is missing; rerun import prepare"
  sizeIntentChanged := "staged object size intent changed"

namespace Db

def findImportOperation (db : Db) (user : Uuid) (operationId : OperationId) :
    Option ImportOperationRow :=
  db.importOperations.find? fun row =>
    row.userId = user ∧ row.operationId = operationId

/-- The locator of a readable fork source that is not quarantined. -/
def lockForkSource (db : Db) (user resourceId : Uuid) :
    Option (Text × Text) := do
  let row <- (db.findResource resourceId).filter fun row =>
    decide (row.kind = .skill) && !row.deleted &&
      db.canReadResource user resourceId &&
      !db.quarantines.any fun quarantine =>
        quarantine.resourceId = resourceId ∧ quarantine.lifted = false ∧
          (quarantine.releaseVersion = none ∨
            quarantine.releaseVersion = row.latestReleaseVersion)
  let owner <- db.directory.namespaceById row.ownerNamespaceId
  return (owner.slug, row.slug)

def validateForkSource (db : Db) (user namespaceId : Uuid)
    (fork : ValidatedFork) : Except ApiError (Text × Text) := do
  let source <- okOr (db.lockForkSource user fork.upstreamResourceId)
    (ApiError.new .notFound "fork upstream is unavailable")
  ensure (db.userCanForkRevision user namespaceId fork.upstreamResourceId
      fork.upstreamRevisionId)
    (ApiError.new .notFound "fork upstream revision is unavailable")
  return source

def slugTaken (db : Db) (namespaceId : Uuid) (slug : Text) : Bool :=
  db.resources.any fun row =>
    row.ownerNamespaceId = namespaceId ∧ row.kind = .skill ∧ row.slug = slug ∧
      row.deleted = false

def canManage (db : Db) (session : Session) (resourceId : Uuid) : Bool :=
  match session with
  | .actor user => db.canManageResource user resourceId
  | .worker => true

def redirectAt (namespaceId : Uuid) (slug : Text) (row : RedirectRow) : Bool :=
  row.namespaceId = namespaceId ∧ row.kind = .skill ∧ row.oldSlug = slug

def deleteRedirect (db : Db) (session : Session) (namespaceId : Uuid)
    (slug : Text) : Db :=
  { db with
    redirects := deleteWhere
      (fun row => redirectAt namespaceId slug row &&
        db.canManage session row.targetResourceId)
      db.redirects }

def insertResource (db : Db) (row : ResourceRow) : Except ApiError Db := do
  ensure (db.findResource row.id).isNone (internalApiError "resources_pkey")
  return { db with resources := db.resources ++ [row] }

def insertFork (db : Db) (row : ForkRow) : Except ApiError Db := do
  ensure (row.resourceId != row.upstreamResourceId)
    (internalApiError "skill_forks_check")
  ensure (db.fork row.resourceId).isNone (internalApiError "skill_forks_pkey")
  return { db with forks := db.forks ++ [row] }

def insertWorkspace (db : Db) (row : WorkspaceRow) : Except ApiError Db := do
  ensure (db.workspace row.resourceId row.workspaceUserId).isNone
    (internalApiError "skill_private_workspaces_pkey")
  return { db with workspaces := db.workspaces ++ [row] }

/-- The first reference of a new resource to a blob. -/
def firstReference (resourceId namespaceId : Uuid) (db : Db)
    (blob : BlobId × Nat) : Except ApiError Db := do
  ensure (db.resourceBlobs.get? (resourceId, blob.1)).isNone
    (internalApiError "resource_blob_reachability_pkey")
  return db.addReference resourceId namespaceId blob.1

end Db

/-- An import between its two transactions. -/
structure PendingImport (ext : Externals) where
  authority : UserAuthority
  request : CommitRequest
  operation : ImportOperationRow
  targetSlug : Text
  trees : List (SkillManifestTree ext)
  blobs : Blobs
  content : VerifiedContent

namespace Registry

variable (self : Registry)

def validatePrivateImportRequest (request : PrivateSkillImportRequest) :
    Except ApiError Blobs := do
  (validateSkillName request.name).mapError invalidImportSkill
  checkRequestHash request.requestHash
    (self.hashes.privateSkillImport
      request.toPrivateSkillImportRequestHashInput)
    "request_hash does not match the canonical import payload"
  ensure (request.snapshotSizeBytes ≤ self.limits.maxReleaseBytes)
    (ApiError.new .invalidRequest
      "deterministic snapshot exceeds registry release-size limit")
  ensure (request.snapshotSizeBytes ≤ self.limits.maxTransferBytes)
    (ApiError.new .invalidRequest
      "deterministic snapshot exceeds registry transfer limit")
  request.fork.forM parseForkIntent
  let _ <- (validateDeclaredSkillManifest self.ext request.manifest).mapError
    invalidSnapshot
  let blobs <- manifestBlobs request.manifest
  ensure (blobs.all fun blob => blob.2 ≤ self.limits.maxObjectBytes)
    (ApiError.new .invalidRequest
      "skill contains an object above the registry object-size limit")
  return blobs

/-- The checks of a fork that is being imported. -/
def checkForkImport (db : Db) (authority : UserAuthority) (isTeam : Bool)
    (fork : ValidatedFork) : Except ApiError Unit := do
  ensure (!isTeam)
    (ApiError.new .invalidRequest
      "fork resources are personal; transfer an existing personal resource into a team instead")
  let _ <- db.validateForkSource authority.userId authority.namespaceId fork
  ensure (!fork.replaceSubscription || db.subscriptions.any fun row =>
      row.userId = authority.userId ∧
        row.resourceId = fork.upstreamResourceId)
    (ApiError.new .generationConflict
      "automatic fork source is no longer an active account subscription")

def replayImport (target : NamespacePublishAuthority)
    (existing : ImportOperationRow) : PrivateSkillImportPrepareResponse where
  resourceId := existing.resourceId
  locator := locatorText target.namespaceSlug existing.slug
  revisionId := existing.revisionId
  generation := 1
  committed := existing.state == .committed
  uploads := if existing.state = .committed then [] else existing.staging

def preparePrivateSkillImport (newResourceId : Uuid) (fresh : BlobId -> Uuid)
    (userId : Uuid) (request : PrivateSkillImportRequest) (db : Db) :
    Except ApiError (PrivateSkillImportPrepareResponse × Db) := do
  let authority <- db.directory.userAuthority userId
  let blobs <- self.validatePrivateImportRequest request
  let author <- db.directory.revisionAuthorForUser authority
    request.revisionAuthorPrincipalId
  let parents := (request.fork.map ValidatedFork.upstreamRevisionId).toList
  let revision <-
    (Revision.new request.manifest.rootTree parents author
      request.operationId).mapError fun source =>
        { code := .invalidRequest, message := .revision source }
  let target <-
    db.directory.authorizeNamespacePublish authority request.owner
  match db.findImportOperation authority.userId request.operationId with
  | some existing => do
      ensureRequestHash existing.requestHash request.requestHash
      return (replayImport target existing, db)
  | none => do
      request.fork.forM (checkForkImport db authority target.isTeam)
      ensure (request.expectedGeneration == 0)
        (ApiError.new .generationConflict
          "new skill import requires expected_generation=0")
      let locator := locatorText target.namespaceSlug request.name
      ensure (!db.slugTaken target.namespaceId request.name)
        (ApiError.new .generationConflict
          (String.ofList locator ++ " already exists"))
      ensure (!db.importOperations.any fun row =>
          row.namespaceId = target.namespaceId ∧ row.slug = request.name ∧
            row.state = .prepared)
        (ApiError.new .operationConflict
          ("another import is already preparing " ++ String.ofList locator))
      ensure (request.snapshotSizeBytes < 2 ^ 63)
        (ApiError.new .invalidRequest "snapshot is too large")
      let staging <- stageMissing db target.namespaceId request.operationId
        fresh blobs "object size exceeds database range"
      let row : ImportOperationRow :=
        { userId := authority.userId
          operationId := request.operationId
          requestHash := request.requestHash
          namespaceId := target.namespaceId
          resourceId := newResourceId
          slug := request.name
          expectedGeneration := request.expectedGeneration.toNat
          revisionId := revision.id self.ext
          rootTreeId := request.manifest.rootTree
          manifest := request.manifest
          snapshotSha256 := request.snapshotSha256
          snapshotSize := request.snapshotSizeBytes
          revisionAuthorPrincipalId := some author
          fork := request.fork
          state := .prepared
          outcome := none
          staging }
      return (
        { resourceId := newResourceId
          locator
          revisionId := row.revisionId
          generation := 1
          committed := false
          uploads := staging },
        { db with importOperations := db.importOperations ++ [row] })

/-- The first transaction of an import commit and the verification of its
objects. -/
def readPrivateSkillImport (store : ObjectStore) (userId : Uuid)
    (request : CommitRequest) (db : Db) :
    Except ApiError (PrivateSkillImportResponse ⊕ PendingImport self.ext) := do
  let authority <- db.directory.userAuthority userId
  let operation <- okOr
    (db.findImportOperation authority.userId request.operationId)
    (ApiError.new .notFound "private import operation not found")
  ensureRequestHash operation.requestHash request.requestHash
  if operation.state = .committed then
    let outcome <- okOr operation.outcome
      (ApiError.new .internal "committed import has no stored outcome")
    return .inl outcome
  else
    let owner <- okOr (db.directory.namespaceById operation.namespaceId)
      (ApiError.new .notFound "import namespace is unavailable")
    let target <-
      db.directory.authorizeNamespacePublish authority owner.slug
    ensure (target.namespaceId == operation.namespaceId)
      (ApiError.new .unauthorized "import namespace is unavailable")
    ensure (operation.expectedGeneration == 0)
      (ApiError.new .internal "stored import expected generation is invalid")
    let trees <-
      (validateDeclaredSkillManifest self.ext operation.manifest).mapError
        invalidSnapshot
    let blobs <- manifestBlobs operation.manifest
    let canonical <- canonicalObjects db importVerificationTexts
      operation.namespaceId operation.staging blobs
    let bytes <- blobs.mapM
      (verifiedObject self.ext store importVerificationTexts
        operation.staging canonical)
    let name := (operation.fork.bind
      ValidatedFork.historicalSkillName).getD operation.slug
    let (snapshot, metadata) <- rebuildImport name operation bytes
    operation.staging.forM (putStaged store bytes)
    (store.put (storedSnapshotOf self.ext snapshot).snapshotKey
      snapshot.bytes).mapError objectStoreApiError
    return .inr
      { authority
        request
        operation
        targetSlug := owner.slug
        trees
        blobs
        content :=
          { snapshot := storedSnapshotOf self.ext snapshot, metadata } }
where
  /-- The archive must also reproduce the declared digest and size. -/
  rebuildImport (name : Text) (operation : ImportOperationRow)
      (bytes : List (BlobId × Bytes)) :
      Except ApiError (DeterministicSkillSnapshot × SkillMetadata) := do
    let entries <- ownedEntriesFromManifest operation.manifest bytes
    let snapshot <-
      (buildDeterministicSkillSnapshot self.ext name entries).mapError
        invalidSnapshot
    ensure (snapshot.manifest == operation.manifest)
      (ApiError.new .invalidRequest
        "verified object bytes do not match the declared manifest")
    ensure (BlobId.hash self.ext snapshot.bytes == operation.snapshotSha256 &&
        snapshot.bytes.length == operation.snapshotSize)
      (ApiError.new .invalidRequest
        "verified objects do not reproduce the declared deterministic snapshot")
    let skillMd <- okOr (skillMdBytes entries)
      (ApiError.new .invalidRequest "skill is missing SKILL.md")
    let document <-
      (parseSkillDocument self.ext name skillMd).mapError invalidSkill
    return (snapshot, documentMetadata document)

variable {self}

/-- The provenance of an imported fork, if its source is still available. -/
def importProvenance (db : Db) (authority : UserAuthority)
    (fork : Option ValidatedFork) :
    Except ApiError (Option SkillForkProvenance) :=
  match fork with
  | none => .ok none
  | some fork => do
      let source <- db.validateForkSource authority.userId
        authority.namespaceId fork
      return some
        { upstreamResourceId := fork.upstreamResourceId
          upstreamLocator := locatorText source.1 source.2
          createdFromRevisionId := fork.upstreamRevisionId
          syncBaseRevisionId := fork.upstreamRevisionId }

/-- Record the provenance of a fork, and replace the subscription. -/
def insertImportedFork (user resourceId : Uuid) (revisionId : RevisionId)
    (fork : Option ValidatedFork) (db : Db) : Except ApiError Db :=
  match fork with
  | none => .ok db
  | some fork => do
      let db <- db.insertFork
        { resourceId
          upstreamResourceId := fork.upstreamResourceId
          createdFromRevisionId := fork.upstreamRevisionId
          syncBaseRevisionId := fork.upstreamRevisionId
          promotionHeadRevisionId := fork.promotionHeadRevisionId
          promotionPending := fork.promotionHeadRevisionId.any fun head =>
            head != revisionId }
      if fork.replaceSubscription then
        return { db with
          subscriptions := deleteWhere
            (fun row => row.userId = user ∧
              row.resourceId = fork.upstreamResourceId)
            db.subscriptions }
      else
        return db

/-- Store the blobs, trees and first revision of an import. -/
def storeImport (plan : PendingImport self.ext) (fork : Option ValidatedFork)
    (author : AuthorPrincipalId) (db : Db) : Except ApiError Db := do
  let operation := plan.operation
  db.enforceNamespaceQuota self.limits operation.namespaceId plan.blobs
  let db := db.deleteRedirect (.actor plan.authority.userId)
    operation.namespaceId operation.slug
  let db <- db.persistCanonicalBlobs plan.blobs
  let db <- db.persistTrees plan.trees
  let db <- db.persistRevision (.actor plan.authority.userId)
    { revisionId := operation.revisionId
      rootTreeId := operation.manifest.rootTree
      authorPrincipalId := author
      operationId := plan.request.operationId }
  let db := match fork with
    | none => db
    | some fork =>
        db.insertParent ⟨operation.revisionId, fork.upstreamRevisionId, 0⟩
  return plan.blobs.foldl
    (fun db blob => db.insertRevisionBlob ⟨operation.revisionId, blob.1⟩) db

/-- Create the resource, its workspace and its first snapshot. -/
def createImportedSkill (plan : PendingImport self.ext)
    (fork : Option ValidatedFork) (db : Db) : Except ApiError Db := do
  let operation := plan.operation
  let user := plan.authority.userId
  let db := db.deleteRedirect (.actor plan.authority.userId)
    operation.namespaceId operation.slug
  let db <- db.insertResource
    { id := operation.resourceId
      ownerNamespaceId := operation.namespaceId
      slug := operation.slug
      kind := .skill
      visibility := .priv
      metadata := plan.content.metadata
      generation := .one
      latestReleaseVersion := none
      deprecated := false
      deprecationReplacement := none
      deleted := false }
  let db <- insertImportedFork user operation.resourceId operation.revisionId
    fork db
  let db <- db.insertWorkspace
    { resourceId := operation.resourceId
      workspaceUserId := user
      metadata := plan.content.metadata
      revisionId := operation.revisionId
      generation := .one
      snapshot := plan.content.snapshot }
  let db <- db.insertSnapshot
    { resourceId := operation.resourceId
      revisionId := operation.revisionId
      snapshot := plan.content.snapshot }
  plan.blobs.foldlM
    (Db.firstReference operation.resourceId operation.namespaceId) db

/-- The second transaction of an import commit. -/
def writePrivateSkillImport (plan : PendingImport self.ext) (db : Db) :
    Except ApiError (PrivateSkillImportResponse × Db) := do
  let operation := plan.operation
  let user := plan.authority.userId
  let target <-
    db.directory.authorizeNamespacePublish plan.authority plan.targetSlug
  ensure (target.namespaceId == operation.namespaceId)
    (ApiError.new .unauthorized "import namespace is unavailable")
  let locked <- okOr (db.findImportOperation user plan.request.operationId)
    (ApiError.new .internal "import operation disappeared")
  ensureRequestHash locked.requestHash plan.request.requestHash
  if locked.state = .committed then
    let outcome <- okOr locked.outcome
      (ApiError.new .internal "committed import has no stored outcome")
    return (outcome, db)
  else
    let provenance <- importProvenance db plan.authority locked.fork
    let locator := locatorText target.namespaceSlug operation.slug
    let outcome : PrivateSkillImportResponse :=
      { resourceId := operation.resourceId
        locator
        owner := target.namespaceSlug
        name := operation.slug
        description := plan.content.metadata.description
        generation := 1
        revisionId := operation.revisionId
        manifest := operation.manifest
        fork := provenance }
    ensure (!db.slugTaken operation.namespaceId operation.slug)
      (ApiError.new .generationConflict
        (String.ofList locator ++ " changed while import was in progress"))
    let db <- storeImport plan locked.fork
      (locked.revisionAuthorPrincipalId.getD plan.authority.authorPrincipalId)
      db
    let db <- createImportedSkill plan locked.fork db
    return (outcome,
      { db with
        importOperations := updateWhere
          (fun row => row.userId = user ∧
            row.operationId = plan.request.operationId ∧
            row.state = .prepared)
          (fun row => { row with state := .committed, outcome := some outcome })
          db.importOperations })

variable (self)

def commitPrivateSkillImport (store : ObjectStore) (userId : Uuid)
    (request : CommitRequest) (db : Db) :
    Except ApiError (PrivateSkillImportResponse × Db) := do
  let read <- self.readPrivateSkillImport store userId request db
  match read with
  | .inl outcome => return (outcome, db)
  | .inr plan => writePrivateSkillImport plan db

/-!
## What an import writes
-/

/-- The parents of the first revision of an imported skill. -/
def importParents (fork : Option ValidatedFork) : List RevisionId :=
  (fork.map ValidatedFork.upstreamRevisionId).toList

structure ImportWritten {registry : Registry}
    (plan : PendingImport registry.ext) (fork : Option ValidatedFork)
    (db db' : Db) : Prop where
  savesOnly : SavesOnly db db'
  operations : db'.revisionOperations = db.revisionOperations
  conflicts : db'.conflicts = db.conflicts
  fresh : db.findResource plan.operation.resourceId = none
  resources : exists row : ResourceRow,
    row.id = plan.operation.resourceId ∧ row.kind = .skill ∧
      db'.resources = db.resources ++ [row]
  workspaces : exists row : WorkspaceRow,
    row.resourceId = plan.operation.resourceId ∧
      row.workspaceUserId = plan.authority.userId ∧
        row.revisionId = plan.operation.revisionId ∧
          db'.workspaces = db.workspaces ++ [row]
  retains : forall resourceId revision,
    Db.Retains db'.snapshots resourceId revision <->
      Db.Retains db.snapshots resourceId revision ∨
        (resourceId = plan.operation.resourceId ∧
          revision = plan.operation.revisionId)
  parents : db'.revisionParents = (db.insertParents plan.operation.revisionId
    (importParents fork)).revisionParents
  imports : exists outcome, db'.importOperations = updateWhere
    (fun row => row.userId = plan.authority.userId ∧
      row.operationId = plan.request.operationId ∧ row.state = .prepared)
    (fun row => { row with state := .committed, outcome := some outcome })
    db.importOperations
  newResource : forall row, row ∈ db'.resources -> row ∈ db.resources ∨
    row.id = plan.operation.resourceId ∧
      row.ownerNamespaceId = plan.operation.namespaceId ∧
        row.latestReleaseVersion = none
  named : exists row : ResourceRow,
    db'.resources = db.resources ++ [row] ∧
      row.id = plan.operation.resourceId ∧ row.kind = .skill ∧
        row.ownerNamespaceId = plan.operation.namespaceId ∧
          row.slug = plan.operation.slug
  unused : db.slugTaken plan.operation.namespaceId plan.operation.slug = false
  owner : exists space, space ∈ db.directory.namespaces ∧
    space.id = plan.operation.namespaceId
  redirects : forall row, row ∈ db'.redirects ->
    row ∈ (db.deleteRedirect (.actor plan.authority.userId)
      plan.operation.namespaceId plan.operation.slug).redirects
  packStates : db'.packStates = db.packStates
  stored : Db.Stored plan.operation.resourceId plan.operation.namespaceId
    plan.operation.revisionId plan.blobs db db'

variable {self} {plan : PendingImport self.ext} {fork : Option ValidatedFork}
  {db db' : Db}

theorem storeImport_eq_ok {author : AuthorPrincipalId}
    (h : storeImport plan fork author db = .ok db') :
    exists canonicalBlobs merkleTrees treeEntries revisions revisionBlobs,
      db' = { db.deleteRedirect (.actor plan.authority.userId)
          plan.operation.namespaceId plan.operation.slug with
        canonicalBlobs, merkleTrees, treeEntries, revisions, revisionBlobs,
        revisionParents := (db.insertParents plan.operation.revisionId
          (importParents fork)).revisionParents } := by
  rcases bind_eq_ok.mp h with ⟨_, _, h⟩
  rcases bind_eq_ok.mp h with ⟨db₁, hblobs, h⟩
  rcases bind_eq_ok.mp h with ⟨db₂, htrees, h⟩
  rcases bind_eq_ok.mp h with ⟨db₃, hrevision, h⟩
  rcases Db.insertRevisionBlobs_eq plan.operation.revisionId plan.blobs _ with
    ⟨revisionBlobs, hreached, _⟩
  have hdb' := (Except.ok.inj h).symm.trans hreached
  rcases Db.persistCanonicalBlobs_frame hblobs with ⟨blobs, hdb₁⟩
  rcases Db.persistTrees_frame htrees with ⟨trees, entries, hdb₂⟩
  rcases Db.persistRevision_frame hrevision with ⟨revisions, hdb₃⟩
  rw [hdb₂, hdb₁] at hdb₃
  refine ⟨blobs, trees, entries, revisions, revisionBlobs, ?_⟩
  rw [hdb']
  have htable := Db.insertParents_table (a := db₃) (b := db)
    (by rw [hdb₃]; rfl) plan.operation.revisionId (importParents fork)
  cases fork with
  | none =>
      rw [hdb₃]
      rfl
  | some fork =>
      rcases Db.insertParent_frame db₃
        ⟨plan.operation.revisionId, fork.upstreamRevisionId, 0⟩ with
        ⟨parents, hparents⟩
      have hrow : db₃.insertParents plan.operation.revisionId
          (importParents (some fork)) = { db₃ with revisionParents := parents } :=
        hparents
      rw [← htable, hrow]
      dsimp only
      rw [hparents, hdb₃]

/-- An import stores its revision and its blobs. -/
theorem storeImport_stored {author : AuthorPrincipalId}
    (h : storeImport plan fork author db = .ok db') :
    Db.StoresBlobs plan.blobs db.canonicalBlobs db'.canonicalBlobs ∧
      Db.StoresRevision plan.operation.revisionId db.revisions db'.revisions ∧
      forall row, row ∈ db'.revisionBlobs <-> row ∈ db.revisionBlobs ∨
        row.revisionId = plan.operation.revisionId ∧
          row.blobId ∈ plan.blobs.map Prod.fst := by
  rcases bind_eq_ok.mp h with ⟨_, _, h⟩
  rcases bind_eq_ok.mp h with ⟨db₁, hblobs, h⟩
  rcases bind_eq_ok.mp h with ⟨db₂, htrees, h⟩
  rcases bind_eq_ok.mp h with ⟨db₃, hrevision, h⟩
  rcases Db.persistCanonicalBlobs_eq_ok hblobs with ⟨blobs, rfl, hstores⟩
  rcases Db.persistTrees_frame htrees with ⟨trees, entries, rfl⟩
  rcases Db.persistRevision_eq_ok hrevision with ⟨revisions, rfl, hrow⟩
  cases h
  cases fork with
  | none =>
      rcases Db.insertRevisionBlobs_eq plan.operation.revisionId plan.blobs _
        with ⟨revisionBlobs, hreached, hrows⟩
      rw [hreached]
      exact ⟨hstores, hrow, hrows⟩
  | some fork =>
      dsimp only
      rcases Db.insertParent_frame _
        ⟨plan.operation.revisionId, fork.upstreamRevisionId, 0⟩ with
        ⟨parents, hparents⟩
      rw [hparents]
      rcases Db.insertRevisionBlobs_eq plan.operation.revisionId plan.blobs _
        with ⟨revisionBlobs, hreached, hrows⟩
      rw [hreached]
      exact ⟨hstores, hrow, hrows⟩

theorem insertImportedFork_frame {user resourceId : Uuid}
    {revision : RevisionId}
    (h : insertImportedFork user resourceId revision fork db = .ok db') :
    exists forks subscriptions, db' = { db with forks, subscriptions } := by
  unfold insertImportedFork at h
  split at h
  · cases h
    exact ⟨db.forks, db.subscriptions, rfl⟩
  · rcases bind_eq_ok.mp h with ⟨inserted, hinserted, h⟩
    rcases bind_eq_ok.mp hinserted with ⟨_, _, hinserted⟩
    rcases bind_eq_ok.mp hinserted with ⟨_, _, hinserted⟩
    cases hinserted
    split at h
    · cases h
      exact ⟨_, _, rfl⟩
    · cases h
      exact ⟨_, db.subscriptions, rfl⟩

theorem firstReferences_eq {resourceId namespaceId : Uuid} {blobs : Blobs}
    (h : blobs.foldlM (Db.firstReference resourceId namespaceId) db =
      .ok db') :
    db' = { db with
      resourceBlobs := db.resourceBlobs.addAll (Db.references blobs)
        fun blob => (resourceId, blob)
      namespaceBlobs := db.namespaceBlobs.addAll (Db.references blobs)
        fun blob => (namespaceId, blob) } := by
  induction blobs generalizing db with
  | nil =>
      cases h
      rfl
  | cons blob rest ih =>
      rw [List.foldlM_cons] at h
      rcases bind_eq_ok.mp h with ⟨middle, hfirst, hrest⟩
      rcases bind_eq_ok.mp hfirst with ⟨_, _, hfirst⟩
      cases hfirst
      exact ih hrest

theorem createImportedSkill_eq_ok
    (h : createImportedSkill plan fork db = .ok db') :
    exists forks subscriptions snapshots resources workspaces,
      db' = { db.deleteRedirect (.actor plan.authority.userId)
          plan.operation.namespaceId plan.operation.slug with
        forks, subscriptions, snapshots, resources, workspaces
        resourceBlobs := db.resourceBlobs.addAll (Db.references plan.blobs)
          fun blob => (plan.operation.resourceId, blob)
        namespaceBlobs := db.namespaceBlobs.addAll (Db.references plan.blobs)
          fun blob => (plan.operation.namespaceId, blob) } ∧
      db.findResource plan.operation.resourceId = none ∧
      (exists row : ResourceRow,
        row.id = plan.operation.resourceId ∧ row.kind = .skill ∧
          row.ownerNamespaceId = plan.operation.namespaceId ∧
            row.slug = plan.operation.slug ∧
              resources = db.resources ++ [row]) ∧
      (forall row, row ∈ resources -> row ∈ db.resources ∨
        row.id = plan.operation.resourceId ∧
          row.ownerNamespaceId = plan.operation.namespaceId ∧
            row.latestReleaseVersion = none) ∧
      (exists row : WorkspaceRow,
        row.resourceId = plan.operation.resourceId ∧
          row.workspaceUserId = plan.authority.userId ∧
            row.revisionId = plan.operation.revisionId ∧
              workspaces = db.workspaces ++ [row]) ∧
      forall resourceId revision,
        Db.Retains snapshots resourceId revision <->
          Db.Retains db.snapshots resourceId revision ∨
            (resourceId = plan.operation.resourceId ∧
              revision = plan.operation.revisionId) := by
  rcases bind_eq_ok.mp h with ⟨db₁, hresource, h⟩
  rcases bind_eq_ok.mp h with ⟨db₂, hfork, h⟩
  rcases bind_eq_ok.mp h with ⟨db₃, hworkspace, h⟩
  rcases bind_eq_ok.mp h with ⟨db₄, hsnapshot, h⟩
  rcases bind_eq_ok.mp hresource with ⟨_, hfresh, hresource⟩
  rcases bind_eq_ok.mp hworkspace with ⟨_, _, hworkspace⟩
  rcases insertImportedFork_frame hfork with ⟨forks, subscriptions, hdb₂⟩
  have hdb' := firstReferences_eq h
  have hretains := Db.insertSnapshot_retains hsnapshot
  rcases Db.insertSnapshot_eq_ok hsnapshot with ⟨snapshots, hdb₄, _⟩
  have hdb₁ := Except.ok.inj hresource
  have hdb₃ := Except.ok.inj hworkspace
  rw [hdb₄, ← hdb₃, hdb₂, ← hdb₁] at hdb' hretains
  refine ⟨forks, subscriptions, snapshots, _, _, hdb', ?_,
    ⟨_, rfl, rfl, rfl, rfl, rfl⟩, ?_, ⟨_, rfl, rfl, rfl, rfl⟩, ?_⟩
  · exact Option.isNone_iff_eq_none.mp (ensure_eq_ok.mp hfresh)
  · intro row hrow
    rcases List.mem_append.mp hrow with hold | hnew
    · exact .inl hold
    · rw [List.mem_singleton.mp hnew]
      exact .inr ⟨rfl, rfl, rfl⟩
  · exact hretains

theorem writePrivateSkillImport_eq_ok {outcome : PrivateSkillImportResponse}
    (h : writePrivateSkillImport plan db = .ok (outcome, db')) :
    db' = db ∨
      exists locked,
        db.findImportOperation plan.authority.userId
            plan.request.operationId = some locked ∧
          ImportWritten plan locked.fork db db' := by
  rcases bind_eq_ok.mp h with ⟨target, htarget, h⟩
  rcases bind_eq_ok.mp h with ⟨_, hnamespace, h⟩
  rcases bind_eq_ok.mp h with ⟨locked, hlocked, h⟩
  rcases bind_eq_ok.mp h with ⟨_, _, h⟩
  split at h
  · rcases bind_eq_ok.mp h with ⟨_, _, h⟩
    cases h
    exact .inl rfl
  · rcases bind_eq_ok.mp h with ⟨provenance, _, h⟩
    rcases bind_eq_ok.mp h with ⟨_, hunused, h⟩
    rcases bind_eq_ok.mp h with ⟨stored, hstored, h⟩
    rcases bind_eq_ok.mp h with ⟨created, hcreated, h⟩
    have hreached := storeImport_stored hstored
    rcases storeImport_eq_ok hstored with ⟨_, _, _, _, _, hdb₁⟩
    rcases createImportedSkill_eq_ok hcreated with
      ⟨_, _, snapshots, resources, workspaces, hdb₂, hfresh, hresource, hnew,
        hworkspaces, hretains⟩
    refine .inr ⟨locked, okOr_eq_ok.mp hlocked, ?_⟩
    cases h
    rw [hdb₁] at hdb₂ hfresh hresource hnew hworkspaces hretains hreached
    rcases hresource with ⟨row, hid, hkind, howner, hslug, rfl⟩
    rcases Directory.found_of_authorizeNamespacePublish htarget with
      ⟨space, _, hspace, hspaceId, _⟩
    rw [hdb₂]
    refine ⟨⟨rfl, rfl, rfl, rfl, rfl⟩, rfl, rfl, hfresh,
      ⟨row, hid, hkind, rfl⟩, hworkspaces, hretains, rfl, ⟨_, rfl⟩, hnew,
      ⟨row, rfl, hid, hkind, howner, hslug⟩, ?_, ⟨space, hspace, ?_⟩, ?_, rfl,
      ⟨hreached.1, hreached.2.1, rfl, rfl, hreached.2.2⟩⟩
    · simpa using hunused
    · rw [← hspaceId]
      exact beq_iff_eq.mp (ensure_eq_ok.mp hnamespace)
    · intro redirect hredirect
      exact (mem_deleteWhere.mp hredirect).1

theorem readPrivateSkillImport_eq_ok {store : ObjectStore} {userId : Uuid}
    {request : CommitRequest}
    (h : self.readPrivateSkillImport store userId request db =
      .ok (.inr plan)) :
    db.directory.userAuthority userId = .ok plan.authority ∧
      plan.request = request ∧
        db.findImportOperation plan.authority.userId request.operationId =
          some plan.operation := by
  rcases bind_eq_ok.mp h with ⟨authority, hauthority, h⟩
  rcases bind_eq_ok.mp h with ⟨operation, hoperation, h⟩
  rcases bind_eq_ok.mp h with ⟨_, _, h⟩
  split at h
  · rcases bind_eq_ok.mp h with ⟨_, _, h⟩
    cases h
  · rcases bind_eq_ok.mp h with ⟨_, _, h⟩
    rcases bind_eq_ok.mp h with ⟨_, _, h⟩
    rcases bind_eq_ok.mp h with ⟨_, _, h⟩
    rcases bind_eq_ok.mp h with ⟨_, _, h⟩
    rcases bind_eq_ok.mp h with ⟨_, _, h⟩
    rcases bind_eq_ok.mp h with ⟨_, _, h⟩
    rcases bind_eq_ok.mp h with ⟨_, _, h⟩
    rcases bind_eq_ok.mp h with ⟨_, _, h⟩
    rcases bind_eq_ok.mp h with ⟨_, _, h⟩
    rcases bind_eq_ok.mp h with ⟨_, _, h⟩
    rcases bind_eq_ok.mp h with ⟨_, _, h⟩
    cases h
    exact ⟨hauthority, rfl, okOr_eq_ok.mp hoperation⟩

/-- A committed import writes the skill of its prepared operation, or finds it
already written. -/
theorem commitPrivateSkillImport_eq_ok {store : ObjectStore} {userId : Uuid}
    {request : CommitRequest} {outcome : PrivateSkillImportResponse}
    (h : self.commitPrivateSkillImport store userId request db =
      .ok (outcome, db')) :
    db' = db ∨
      exists plan : PendingImport self.ext,
        db.directory.userAuthority userId = .ok plan.authority ∧
          db.findImportOperation plan.authority.userId request.operationId =
              some plan.operation ∧
            ImportWritten plan plan.operation.fork db db' := by
  rcases bind_eq_ok.mp h with ⟨read, hread, h⟩
  split at h
  · cases h
    exact .inl rfl
  · rename_i plan
    rcases readPrivateSkillImport_eq_ok hread with
      ⟨hauthority, hrequest, hoperation⟩
    rcases writePrivateSkillImport_eq_ok h with hsame | ⟨locked, hlocked, hw⟩
    · exact .inl hsame
    · rw [hrequest, hoperation] at hlocked
      cases hlocked
      exact .inr ⟨plan, hauthority, hoperation, hw⟩

end Registry
end Denju
