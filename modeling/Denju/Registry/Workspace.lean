import Denju.Registry.Requests

/-!
# Preparing a private save

A save is prepared under an operation identifier and committed later.  Both
steps check the head of the workspace, its generation and the table of
unresolved conflicts.  This module prepares a save.
-/

namespace Denju

open Lib

namespace Db

/-!
## Workspaces and operations
-/

/-- The workspace of a user of a team skill starts at the latest release. -/
def ensurePrivateWorkspaceForUser (db : Db) (resourceId user : Uuid) : Db :=
  match db.workspace resourceId user, db.findResource resourceId with
  | none, some resource =>
      if resource.kind = .skill ∧ resource.deleted = false then
        match db.releases.find? fun row =>
            row.resourceId = resourceId ∧
              some row.version = resource.latestReleaseVersion with
        | none => db
        | some release =>
            match db.findSnapshot resourceId release.revisionId with
            | none => db
            | some row =>
                { db with
                  workspaces := db.workspaces ++
                    [{ resourceId
                       workspaceUserId := user
                       metadata := resource.metadata
                       revisionId := release.revisionId
                       generation := resource.generation
                       snapshot := row.snapshot }] }
      else db
  | _, _ => db

/-- The resource and the workspace that a request locks. -/
def currentWorkspace (db : Db) (resourceId user : Uuid) (missing : String) :
    Except ApiError (ResourceRow × WorkspaceRow) := do
  let notFound := ApiError.new .notFound missing
  let resource <- okOr
    ((db.findResource resourceId).filter fun row =>
      decide (row.kind = .skill) && !row.deleted)
    notFound
  let workspace <- okOr (db.workspace resourceId user) notFound
  return (resource, workspace)

theorem currentWorkspace_eq_ok {db : Db} {resourceId user : Uuid}
    {missing : String} {resource : ResourceRow} {workspace : WorkspaceRow}
    (h : db.currentWorkspace resourceId user missing =
      .ok (resource, workspace)) :
    db.findResource resourceId = some resource ∧ resource.kind = .skill ∧
      resource.deleted = false ∧
        db.workspace resourceId user = some workspace := by
  rcases bind_eq_ok.mp h with ⟨found, hfound, h⟩
  rcases bind_eq_ok.mp h with ⟨current, hcurrent, h⟩
  cases h
  have hrow := Option.filter_eq_some_iff.mp (okOr_eq_ok.mp hfound)
  have hlive := hrow.2
  simp only [Bool.and_eq_true, decide_eq_true_eq, Bool.not_eq_true'] at hlive
  exact ⟨hrow.1, hlive.1, hlive.2, okOr_eq_ok.mp hcurrent⟩

def findRevisionOperation (db : Db) (user : Uuid)
    (operationId : OperationId) : Option RevisionOperationRow :=
  db.revisionOperations.find? fun row =>
    row.userId = user ∧ row.operationId = operationId

def namespaceReaches (db : Db) (namespaceId : Uuid) (blob : BlobId) : Bool :=
  (db.namespaceBlobs.get? (namespaceId, blob)).isSome

/-!
## Unresolved conflicts
-/

def unresolvedFor (resourceId user : Uuid) (row : WorkspaceConflictRow) :
    Bool :=
  decide (row.resourceId = resourceId ∧ row.workspaceUserId = user) &&
    row.resolutionRevisionId.isNone

def activeConflict (db : Db) (resourceId user : Uuid) :
    Option WorkspaceConflictRow :=
  db.conflicts.find? (unresolvedFor resourceId user)

def validateMergeConflict (db : Db) (conflictId resourceId user : Uuid)
    (parents : List RevisionId) : Except ApiError Unit := do
  ensure (parents.length == 2)
    (ApiError.new .invalidRequest
      "merge revisions require exactly two parents")
  let row <- okOr
    (db.conflicts.find? fun row =>
      decide (row.conflictId = conflictId) &&
        unresolvedFor resourceId user row)
    (ApiError.new .generationConflict
      "workspace conflict is no longer active; reconcile before merging")
  ensure ([row.headARevisionId, row.headBRevisionId] == parents)
    (ApiError.new .invalidRequest
      "merge parents do not match the active workspace conflict")

/-- Two heads in the order of their bytes. -/
def sortedHeads (a b : RevisionId) : RevisionId × RevisionId :=
  if a.key ≤ b.key then (a, b) else (b, a)

def conflictFromRow (row : WorkspaceConflictRow) (generation : Generation) :
    PrivateWorkspaceConflict where
  conflictId := row.conflictId
  resourceId := row.resourceId
  baseRevisionId := row.baseRevisionId
  headRevisionIds := [row.headARevisionId, row.headBRevisionId]
  activeRevisionId := row.activeRevisionId
  generation := generation.value
  resolutionRevisionId := none

def recordWorkspaceConflict (db : Db) (newConflictId resourceId user : Uuid)
    (base detached active : RevisionId) (generation : Generation) :
    Except ApiError (PrivateWorkspaceConflict × Db) := do
  let heads := sortedHeads detached active
  let samePair := fun row : WorkspaceConflictRow =>
    unresolvedFor resourceId user row &&
      decide (row.headARevisionId = heads.1 ∧ row.headBRevisionId = heads.2)
  match db.conflicts.find? samePair with
  | some row =>
      let refresh := fun row : WorkspaceConflictRow =>
        { row with
          activeRevisionId := active
          detectedGeneration := generation }
      return (conflictFromRow (refresh row) generation,
        { db with conflicts := updateWhere samePair refresh db.conflicts })
  | none => do
      ensure (heads.1 != heads.2)
        (internalApiError "skill_workspace_conflicts_check")
      ensure (db.activeConflict resourceId user).isNone
        (internalApiError "skill_workspace_conflicts_one_active_idx")
      ensure (!db.conflicts.any fun row => row.conflictId = newConflictId)
        (internalApiError "skill_workspace_conflicts_pkey")
      let row : WorkspaceConflictRow :=
        { conflictId := newConflictId
          resourceId
          workspaceUserId := user
          baseRevisionId := base
          headARevisionId := heads.1
          headBRevisionId := heads.2
          activeRevisionId := active
          detectedGeneration := generation
          resolutionRevisionId := none }
      return (conflictFromRow row generation,
        { db with conflicts := db.conflicts ++ [row] })

def resolveWorkspaceConflict (db : Db) (conflictId resourceId user : Uuid)
    (resolution : RevisionId) : Except ApiError Db := do
  let target := fun row : WorkspaceConflictRow =>
    decide (row.conflictId = conflictId) && unresolvedFor resourceId user row
  ensure ((db.conflicts.filter target).length == 1)
    (ApiError.new .generationConflict
      "workspace conflict was resolved concurrently")
  return { db with
    conflicts := updateWhere target
      (fun row => { row with resolutionRevisionId := some resolution })
      db.conflicts }

/-!
## Forks
-/

def fork (db : Db) (resourceId : Uuid) : Option ForkRow :=
  db.forks.find? fun row => row.resourceId = resourceId

def userCanForkRevision (db : Db) (user personalNamespace resourceId : Uuid)
    (revision : RevisionId) : Bool :=
  match (db.findResource resourceId).filter fun row =>
      decide (row.kind = .skill) && !row.deleted &&
        db.canReadResource user resourceId with
  | none => false
  | some row =>
      let ownerKind := db.ownerKind row
      let shared := db.sharedWith resourceId user
      let snapshotExists := db.snapshots.any fun snapshot =>
        decide (snapshot.resourceId = resourceId ∧
          snapshot.revisionId = revision) && db.snapshotVisible user snapshot
      let released := db.releases.any fun release =>
        decide (release.resourceId = resourceId ∧
          release.revisionId = revision) && db.releaseVisible user release
      let teamMember :=
        (db.directory.membership row.ownerNamespaceId user).isSome
      if !snapshotExists then false
      else if ownerKind = some .user ∧
          (row.ownerNamespaceId = personalNamespace ∨ shared = true) then true
      else if row.visibility = .pub ∧ released = true then true
      else if ownerKind ≠ some .team then false
      else if released ∧ (teamMember ∨ shared) then true
      else if !teamMember then false
      else
        decide (revision ∈
          db.workspaceAncestry (db.readableEdges user) resourceId user)

/-- The check of a fork sync, with the walk over a part of the graph. -/
def validateForkSyncOver (edges : List (RevisionId × RevisionId)) (db : Db)
    (user namespaceId forkResourceId : Uuid) (sync : ValidatedForkSync) :
    Except ApiError Unit := do
  let fork <- okOr (db.fork forkResourceId)
    (ApiError.new .invalidRequest "skill is not a fork")
  ensure (fork.syncBaseRevisionId == sync.expectedBase)
    (ApiError.new .generationConflict
      "fork upstream base advanced; refresh the fork before retrying sync")
  ensure (db.userCanForkRevision user namespaceId fork.upstreamResourceId
      sync.upstreamRevision)
    (ApiError.new .notFound "fork upstream revision is unavailable")
  ensure (decide (sync.expectedBase ∈ ancestry edges sync.upstreamRevision))
    (ApiError.new .generationConflict
      "selected upstream revision does not descend from the fork sync base")

def validateForkSync (db : Db) (user namespaceId forkResourceId : Uuid)
    (sync : ValidatedForkSync) : Except ApiError Unit :=
  validateForkSyncOver (db.readableEdges user) db user namespaceId
    forkResourceId sync

def requirePendingForkPromotion (db : Db) (resourceId : Uuid) :
    Except ApiError Unit :=
  ensure (db.forks.any fun row =>
      row.resourceId = resourceId ∧ row.promotionPending = true)
    (ApiError.new .invalidRequest
      "historical skill-name validation is only available while promoting a local fork")

/-- A historical name is accepted only while a fork is being promoted. -/
def checkHistoricalSkillName (db : Db) (resourceId : Uuid)
    (name : Option Text) : Except ApiError Unit :=
  match name with
  | none => .ok ()
  | some _ => db.requirePendingForkPromotion resourceId

/-!
## Wakes
-/

def enqueueWake (db : Db) (resourceId : Uuid) (generation : Nat)
    (release : Option ReleaseEvent) : Db :=
  { db with
    authorityEventSequence := db.authorityEventSequence + 1
    authorityEvents := db.authorityEvents ++
      [{ id := db.authorityEventSequence + 1
         resourceId
         resourceGeneration := generation
         release }] }

def enqueueResourceWake (db : Db) (resourceId : Uuid) (generation : Nat) :
    Db :=
  db.enqueueWake resourceId generation none

/-!
## Preparing a save
-/

/-- The checks of a prepared save against the head and the conflicts. -/
def checkPreparedHead (db : Db) (authority : UserAuthority)
    (request : PrivateRevisionRequest) (workspace : WorkspaceRow)
    (expectedGeneration : Nat) : Except ApiError Unit :=
  let parents := request.parentRevisionIds
  let headMatches := workspace.revisionId == request.expectedHeadRevisionId
  let generationMatches := workspace.generation.value == expectedGeneration
  match db.activeConflict request.resourceId authority.userId with
  | some conflict => do
      ensure request.forkSync.isNone
        (ApiError.new .generationConflict
          "resolve the active private workspace conflict before syncing this fork")
      ensure (parents.length == 2 &&
          request.operationId.asUuid == conflict.conflictId)
        (ApiError.new .generationConflict
          "private workspace has an unresolved content conflict; reconcile it before saving another revision")
      ensure (headMatches && generationMatches)
        (ApiError.new .generationConflict
          "workspace conflict target advanced; reconcile before retrying the merge")
      db.validateMergeConflict conflict.conflictId request.resourceId
        authority.userId parents
  | none =>
      if headMatches then do
        ensure generationMatches
          (ApiError.new .generationConflict
            ("private workspace advanced to generation " ++
              toString workspace.generation.value))
        match request.forkSync with
        | some sync => do
            ensure (parents.length == 2 &&
                decide (sync.upstreamRevision ∈ parents))
              (ApiError.new .invalidRequest
                "fork sync revision must have the current fork head and selected upstream revision as its two parents")
            db.validateForkSync authority.userId authority.namespaceId
              request.resourceId sync
        | none =>
            ensure (parents.length != 2)
              (ApiError.new .generationConflict
                "merge revision has no matching active workspace conflict")
      else do
        ensure request.forkSync.isNone
          (ApiError.new .generationConflict
            "fork head advanced while syncing upstream; fetch the current fork and retry")
        ensure (parents.length == 1)
          (ApiError.new .generationConflict
            "merge target advanced again; reconcile the new head before retrying")
        ensure (db.findSnapshot request.resourceId
            request.expectedHeadRevisionId).isSome
          (ApiError.new .generationConflict
            "expected private workspace head is no longer valid history for this resource")

end Db

def parseRevisionParents (parents : List RevisionId) :
    Except ApiError Unit := do
  ensure (parents.length == 1 || parents.length == 2)
    (ApiError.new .invalidRequest
      "private revisions require one or two parent_revision_ids")
  ensure (sortByKey RevisionId.key parents == parents &&
      !(parents.zip parents.tail).any fun pair => pair.1 == pair.2)
    (ApiError.new .invalidRequest
      "parent_revision_ids must be unique and sorted canonically")

def parseForkSyncIntent (sync : Option ValidatedForkSync) :
    Except ApiError Unit :=
  ensure (sync.all fun sync => sync.expectedBase != sync.upstreamRevision)
    (ApiError.new .invalidRequest
      "fork sync target is already the recorded upstream base")

def uuidText (uuid : Uuid) : Text :=
  let digits := hex uuid.toList
  let part := fun (start length : Nat) => (digits.drop start).take length
  part 0 8 ++ "-".toList ++ part 8 4 ++ "-".toList ++ part 12 4 ++
    "-".toList ++ part 16 4 ++ "-".toList ++ part 20 12

def stagingKey (operationId : OperationId) (fresh : Uuid) (blob : BlobId) :
    Text :=
  "staging/".toList ++ uuidText operationId.asUuid ++ "/".toList ++
    uuidText fresh ++ "/".toList ++ hex blob.key

/-- The objects of a save that its namespace does not reach yet. -/
def stageMissing (db : Db) (namespaceId : Uuid) (operationId : OperationId)
    (fresh : BlobId -> Uuid) (blobs : Blobs) (tooLarge : String) :
    Except ApiError (List StagingRow) :=
  (blobs.filter fun blob => !db.namespaceReaches namespaceId blob.1).mapM
    fun blob => do
      ensure (blob.2 < 2 ^ 63)
        (ApiError.new .invalidRequest tooLarge)
      return {
        blobId := blob.1
        sizeBytes := blob.2
        stagingKey := stagingKey operationId (fresh blob.1) blob.1 }

def replayPrepared (existing : RevisionOperationRow) :
    PrivateRevisionPrepareResponse where
  resourceId := existing.resourceId
  revisionId := existing.revisionId
  expectedGeneration := existing.expectedGeneration.value
  state := existing.state
  uploads := if existing.state = .prepared then existing.staging else []

/-- The column check of a stored expected generation. -/
def storedGeneration (value : Nat) : Except ApiError Generation :=
  if h : 0 < value ∧ value < 2 ^ 63 then
    .ok ⟨value, h.1, h.2⟩
  else
    .error
      (internalApiError "private_revision_operations_expected_generation_check")

def preparedOperation (authority : UserAuthority)
    (request : PrivateRevisionRequest) (author : AuthorPrincipalId)
    (revisionId : RevisionId) (namespaceId : Uuid)
    (expectedGeneration : Generation) (staging : List StagingRow) :
    RevisionOperationRow where
  userId := authority.userId
  operationId := request.operationId
  requestHash := request.requestHash
  namespaceId := namespaceId
  resourceId := request.resourceId
  expectedGeneration := expectedGeneration
  expectedHeadRevisionId := request.expectedHeadRevisionId
  revisionId := revisionId
  rootTreeId := request.manifest.rootTree
  manifest := request.manifest
  revisionAuthorPrincipalId := some author
  forkSync := request.forkSync
  historicalSkillName := request.historicalSkillName
  state := .prepared
  outcome := none
  parents := request.parentRevisionIds
  staging := staging

namespace Registry

variable (self : Registry)

/-- The checks of a request that do not read the database. -/
def validatePrivateRevisionRequest (request : PrivateRevisionRequest) :
    Except ApiError Blobs := do
  parseRevisionParents request.parentRevisionIds
  parseForkSyncIntent request.forkSync
  request.historicalSkillName.forM fun name =>
    (validateSkillName name).mapError fun source =>
      { code := .invalidRequest, message := .skill source }
  ensure (decide (request.expectedHeadRevisionId ∈ request.parentRevisionIds))
    (ApiError.new .invalidRequest
      "expected_head_revision_id must be one of parent_revision_ids")
  checkRequestHash request.requestHash
    (self.hashes.privateRevision request.toPrivateRevisionRequestHashInput)
    "request_hash does not match the canonical private revision payload"
  let _ <- (validateDeclaredSkillManifest self.ext request.manifest).mapError
    fun source => { code := .invalidRequest, message := .snapshot source }
  let blobs <- manifestBlobs request.manifest
  ensure (blobs.all fun blob => blob.2 ≤ self.limits.maxObjectBytes)
    (ApiError.new .invalidRequest
      "skill contains an object above the registry object-size limit")
  return blobs

/-- Admit the save and store its operation. -/
def storePrivateRevision (fresh : BlobId -> Uuid) (authority : UserAuthority)
    (request : PrivateRevisionRequest) (blobs : Blobs)
    (author : AuthorPrincipalId) (revisionId : RevisionId) (db : Db) :
    Except ApiError (PrivateRevisionPrepareResponse × Db) := do
  let resourceAuthority <-
    db.authorizeResourcePublish authority request.resourceId
  let db :=
    if resourceAuthority.isTeam then
      db.ensurePrivateWorkspaceForUser request.resourceId authority.userId
    else db
  let (resource, workspace) <- db.currentWorkspace request.resourceId
    authority.userId "private skill not found"
  ensure (resource.ownerNamespaceId == resourceAuthority.namespaceId)
    (ApiError.new .unauthorized "private skill is unavailable")
  db.checkHistoricalSkillName request.resourceId request.historicalSkillName
  let expectedGeneration <- i64TryFrom request.expectedGeneration
    (ApiError.new .invalidRequest "generation exceeds database range")
  db.checkPreparedHead authority request workspace expectedGeneration
  let expectedGeneration <- storedGeneration expectedGeneration
  let staging <- stageMissing db resourceAuthority.namespaceId
    request.operationId fresh blobs "object exceeds database range"
  let row := preparedOperation authority request author revisionId
    resourceAuthority.namespaceId expectedGeneration staging
  return (
    { resourceId := request.resourceId
      revisionId
      expectedGeneration := expectedGeneration.value
      state := .prepared
      uploads := staging },
    { db with revisionOperations := db.revisionOperations ++ [row] })

def preparePrivateRevision (fresh : BlobId -> Uuid) (userId : Uuid)
    (request : PrivateRevisionRequest) (db : Db) :
    Except ApiError (PrivateRevisionPrepareResponse × Db) := do
  let authority <- db.directory.userAuthority userId
  let blobs <- self.validatePrivateRevisionRequest request
  let author <- db.directory.revisionAuthorForUser authority
    request.revisionAuthorPrincipalId
  let revision <-
    (Revision.new request.manifest.rootTree request.parentRevisionIds author
      request.operationId).mapError fun source =>
        { code := .invalidRequest, message := .revision source }
  match db.findRevisionOperation authority.userId request.operationId with
  | some existing => do
      ensureRequestHash existing.requestHash request.requestHash
      return (replayPrepared existing, db)
  | none =>
      storePrivateRevision fresh authority request blobs author
        (revision.id self.ext) db

/-!
## What preparing a save leaves
-/

variable {self} {db db' : Db} {fresh : BlobId -> Uuid}
  {authority : UserAuthority} {request : PrivateRevisionRequest}

theorem validatePrivateRevisionRequest_eq_ok {blobs : Blobs}
    (h : self.validatePrivateRevisionRequest request = .ok blobs) :
    sortByKey RevisionId.key request.parentRevisionIds =
        request.parentRevisionIds ∧
      request.expectedHeadRevisionId ∈ request.parentRevisionIds := by
  rcases bind_eq_ok.mp h with ⟨_, hparents, h⟩
  rcases bind_eq_ok.mp h with ⟨_, _, h⟩
  rcases bind_eq_ok.mp h with ⟨_, _, h⟩
  rcases bind_eq_ok.mp h with ⟨_, hexpected, h⟩
  rcases bind_eq_ok.mp hparents with ⟨_, _, hparents⟩
  have hsorted := ensure_eq_ok.mp hparents
  simp only [Bool.and_eq_true, beq_iff_eq] at hsorted
  exact ⟨hsorted.1, by simpa using hexpected⟩

/-- The expected head of a prepared save is the head, or retained history. -/
theorem checkPreparedHead_eq_ok {workspace : WorkspaceRow} {generation : Nat}
    (h : db.checkPreparedHead authority request workspace generation =
      .ok ()) :
    workspace.revisionId = request.expectedHeadRevisionId ∨
      (db.findSnapshot request.resourceId
        request.expectedHeadRevisionId).isSome := by
  unfold Db.checkPreparedHead at h
  dsimp only at h
  split at h
  · rcases bind_eq_ok.mp h with ⟨_, _, h⟩
    rcases bind_eq_ok.mp h with ⟨_, _, h⟩
    rcases bind_eq_ok.mp h with ⟨_, hhead, h⟩
    have hmatches := ensure_eq_ok.mp hhead
    simp only [Bool.and_eq_true, beq_iff_eq] at hmatches
    exact .inl hmatches.1
  · split at h
    · rename_i hmatches
      exact .inl (beq_iff_eq.mp hmatches)
    · rcases bind_eq_ok.mp h with ⟨_, _, h⟩
      rcases bind_eq_ok.mp h with ⟨_, _, h⟩
      exact .inr (ensure_eq_ok.mp h)

theorem storePrivateRevision_eq_ok {blobs : Blobs}
    {author : AuthorPrincipalId} {revisionId : RevisionId}
    {answer : PrivateRevisionPrepareResponse}
    (h : storePrivateRevision fresh authority request blobs author revisionId
      db = .ok (answer, db')) :
    exists target start workspace generation staging,
      db.authorizeResourcePublish authority request.resourceId = .ok target ∧
      (start = db ∨ start =
        db.ensurePrivateWorkspaceForUser request.resourceId
          authority.userId) ∧
      start.workspace request.resourceId authority.userId = some workspace ∧
      start.checkPreparedHead authority request workspace generation.value =
        .ok () ∧
      db' = { start with
        revisionOperations := start.revisionOperations ++
          [preparedOperation authority request author revisionId
            target.namespaceId generation staging] } := by
  rcases bind_eq_ok.mp h with ⟨target, htarget, h⟩
  rcases bind_eq_ok.mp h with ⟨⟨resource, workspace⟩, hcurrent, h⟩
  rcases bind_eq_ok.mp h with ⟨_, _, h⟩
  rcases bind_eq_ok.mp h with ⟨_, _, h⟩
  rcases bind_eq_ok.mp h with ⟨expected, _, h⟩
  rcases bind_eq_ok.mp h with ⟨_, hhead, h⟩
  rcases bind_eq_ok.mp h with ⟨generation, hgeneration, h⟩
  rcases bind_eq_ok.mp h with ⟨staging, _, h⟩
  rcases bind_eq_ok.mp hcurrent with ⟨_, _, hcurrent⟩
  rcases bind_eq_ok.mp hcurrent with ⟨_, hworkspace, hcurrent⟩
  cases hcurrent
  have hvalue : generation.value = expected := by
    unfold storedGeneration at hgeneration
    split at hgeneration
    · cases hgeneration
      rfl
    · cases hgeneration
  cases h
  refine ⟨target, _, workspace, generation, staging, htarget, ?_,
    okOr_eq_ok.mp hworkspace, ?_, rfl⟩
  · split
    · exact .inr rfl
    · exact .inl rfl
  · rw [hvalue]
    exact hhead

end Registry

end Denju
