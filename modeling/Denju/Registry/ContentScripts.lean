import Denju.Registry.Tables
import Denju.Registry.Proposals
import Denju.Registry.TeamRename
import Denju.Registry.Prune

/-!
# The transactions of content

The statements of every transaction that writes revisions of a skill, with the
objects that it puts and the blobs that it makes reachable.  What a request
computes from verified bytes before its last transaction is given to it.
-/

namespace Denju

open Lib

/-!
## Lookups
-/

namespace TableView

/-- The sizes of the blobs that the namespace reaches. -/
def reachedSizes (view : TableView) (space : Uuid) : List Nat :=
  view.keys.dedup.filterMap fun
    | .namespaceBlob found blob =>
        if found = space then
          (view.rows (.namespaceBlob found blob)).bind fun _ =>
            view.rows (.canonicalBlob blob)
        else none
    | _ => none

/-- Some resource or namespace reaches the blob. -/
def blobReachable (view : TableView) (blob : BlobId) : Bool :=
  view.keys.any fun
    | .resourceBlob resource found =>
        decide (found = blob) &&
          (view.rows (.resourceBlob resource found)).isSome
    | .namespaceBlob space found =>
        decide (found = blob) &&
          (view.rows (.namespaceBlob space found)).isSome
    | _ => false

/-- The skills of the namespace with the name. -/
def skillsNamed (view : TableView) (space : Uuid) (slug : Text) :
    List Uuid :=
  view.keys.dedup.filterMap fun
    | .resource id =>
        ((view.rows (.resource id)).filter fun row =>
          decide (row.ownerNamespaceId = space ∧ row.kind = .skill ∧
            row.slug = slug ∧ row.deleted = false)).map fun _ => id
    | _ => none

def released (view : TableView) (resourceId : Uuid)
    (revision : RevisionId) : Bool :=
  view.keys.any fun
    | .release resource version =>
        decide (resource = resourceId) &&
          (view.rows (.release resource version)).any fun row =>
            decide (row.revisionId = revision)
    | _ => false

/-- Retained by some resource, or released by one. -/
def stillSnapshot (view : TableView) (revision : RevisionId) : Bool :=
  view.keys.any fun
    | .snapshot resource found =>
        decide (found = revision) &&
          (view.rows (.snapshot resource found)).isSome
    | .release resource version =>
        (view.rows (.release resource version)).any fun row =>
          decide (row.revisionId = revision)
    | _ => false

def revisionBlobs (view : TableView) (revision : RevisionId) : List BlobId :=
  view.keys.dedup.filterMap fun
    | .revisionBlob found blob =>
        if found = revision then
          (view.rows (.revisionBlob found blob)).map fun _ => blob
        else none
    | _ => none

/-- The users with a workspace on the skill. -/
def workspacesOf (view : TableView) (resourceId : Uuid) : List Uuid :=
  view.keys.dedup.filterMap fun
    | .workspace resource user =>
        if resource = resourceId then
          (view.rows (.workspace resource user)).map fun _ => user
        else none
    | _ => none

/-- The revisions of the skill that nothing needs, apart from those that other
tables name. -/
def prunable (view : TableView) (resourceId : Uuid)
    (named : List RevisionId) : List RevisionId :=
  view.keys.dedup.filterMap fun
    | .snapshot resource revision =>
        if resource = resourceId ∧ revision ∉ named ∧
            view.released resourceId revision = false ∧
            (view.workspacesOf resourceId).any (fun user =>
              (view.rows (.workspace resourceId user)).any fun row =>
                decide (row.revisionId ≠ revision)) then
          (view.rows (.snapshot resource revision)).map fun _ => revision
        else none
    | _ => none

end TableView

namespace Transaction

/-!
## Quota, blobs and references
-/

def additionalUsage (space : Uuid) :
    Blobs -> Nat -> Transaction Nat
  | [], additional => return additional
  | (blob, size) :: rest, additional => do
      let view : TableView <- Script.rows
      if (view.rows (.namespaceBlob space blob)).isSome then
        additionalUsage space rest additional
      else do
        ensure (additional + size < 2 ^ 64)
          (ApiError.new .quotaExceeded "namespace logical usage overflow")
        additionalUsage space rest (additional + size)

/-- The check of the quota, on which the transaction relies. -/
def enforceNamespaceQuota (limits : Limits) (space : Uuid) (blobs : Blobs) :
    Transaction Unit := do
  let view : TableView <- Script.rows
  let current := (view.reachedSizes space).sum
  ensure (current < 2 ^ 63) (internalApiError "bigint out of range")
  let additional <- additionalUsage space blobs 0
  let projected := current + additional
  ensure (projected < 2 ^ 64)
    (ApiError.new .quotaExceeded "namespace logical usage overflow")
  ensure (projected ≤ limits.namespaceStorageBytes)
    (ApiError.new .quotaExceeded
      ("namespace storage quota exceeded: " ++ toString projected ++ " > " ++
        toString limits.namespaceStorageBytes ++ " bytes"))
  Script.rely [.fits space blobs limits.namespaceStorageBytes]

def persistCanonicalBlob (blob : BlobId × Nat) : Transaction Unit := do
  ensure (blob.2 < 2 ^ 63)
    (ApiError.new .internal "blob size exceeds database range")
  let _ <- Script.insertRow (.canonicalBlob blob.1) blob.2
  let view : TableView <- Script.rows
  ensure (decide (view.rows (.canonicalBlob blob.1) = some blob.2))
    (ApiError.new .internal
      "canonical blob metadata conflicts with its content identity")

def persistCanonicalBlobs (blobs : Blobs) : Transaction Unit :=
  Script.each persistCanonicalBlob blobs

/-- Reach the blob from the revision; nothing changes if it was reached. -/
def insertRevisionBlob (revision : RevisionId) (blob : BlobId) :
    Transaction Unit := do
  let inserted <- Script.insertRow (.revisionBlob revision blob) ()
  if inserted then
    references (.canonicalBlob blob)
      "revision_blob_reachability_blob_id_fkey"

def insertNewRevisionBlob (revision : RevisionId) (blob : BlobId) :
    Transaction Unit := do
  insertNew (.revisionBlob revision blob) ()
    "revision_blob_reachability_pkey"
  references (.canonicalBlob blob) "revision_blob_reachability_blob_id_fkey"

def addNamespaceReference (space : Uuid) (blob : BlobId) :
    Transaction Unit := do
  let inserted <- Script.upsertRow (.namespaceBlob space blob)
    fun row => row.getD 0 + 1
  if inserted then
    references (.namespaceRow space)
      "namespace_blob_reachability_namespace_id_fkey"
    references (.canonicalBlob blob)
      "namespace_blob_reachability_blob_id_fkey"

/-- One more reference from the resource and from its namespace. -/
def addReference (resourceId space : Uuid) (blob : BlobId) :
    Transaction Unit := do
  let inserted <- Script.upsertRow (.resourceBlob resourceId blob)
    fun row => row.getD 0 + 1
  if inserted then
    references (.resource resourceId)
      "resource_blob_reachability_resource_id_fkey"
    references (.canonicalBlob blob) "resource_blob_reachability_blob_id_fkey"
  addNamespaceReference space blob

/-- One more reference where rows exist. -/
def bumpReference (resourceId space : Uuid) (blob : BlobId) :
    Transaction Unit := do
  let _ <- Script.updateRow (.resourceBlob resourceId blob) (· + 1)
  let _ <- Script.updateRow (.namespaceBlob space blob) (· + 1)

/-- The first reference of a new resource to a blob. -/
def firstReference (resourceId space : Uuid) (blob : BlobId) :
    Transaction Unit := do
  insertNew (.resourceBlob resourceId blob) 1
    "resource_blob_reachability_pkey"
  references (.resource resourceId)
    "resource_blob_reachability_resource_id_fkey"
  references (.canonicalBlob blob) "resource_blob_reachability_blob_id_fkey"
  addNamespaceReference space blob

/-- Only a request may cancel the collection of a blob. -/
def cancelBlobGc (session : Session) (blob : BlobId) : Transaction Unit := do
  match session with
  | .actor _ => do
      let _ <- Script.deleteRow (.blobGc blob)
  | .worker =>
      Script.fail (internalApiError "blob GC cancellation is unavailable")

/-- Keep the archive of a revision, unless the resource has it already. -/
def insertSnapshot (resourceId : Uuid) (revision : RevisionId)
    (snapshot : StoredSnapshot) : Transaction Unit := do
  ensure (snapshot.snapshotSize < 2 ^ 63)
    (ApiError.new .internal "snapshot size exceeds database range")
  let inserted <- Script.insertRow (.snapshot resourceId revision) snapshot
  if inserted then
    references (.resource resourceId)
      "resource_revision_snapshots_resource_id_fkey"

def insertNewSnapshot (resourceId : Uuid) (revision : RevisionId)
    (snapshot : StoredSnapshot) : Transaction Unit := do
  insertNew (.snapshot resourceId revision) snapshot
    "resource_revision_snapshots_pkey"
  references (.resource resourceId)
    "resource_revision_snapshots_resource_id_fkey"

/-!
## Objects

The objects of the blobs of a save, before its last transaction: those that the
namespace proves are read, the staged ones are put.
-/

/-- Read the object of a blob that the namespace reaches. -/
def readObject (texts : VerificationTexts) (space : Uuid)
    (blob : BlobId × Nat) : Transaction Unit := do
  let view : TableView <- Script.rows
  let size : Nat <- okOr
    ((view.rows (.namespaceBlob space blob.1)).bind fun _ =>
      view.rows (.canonicalBlob blob.1))
    (ApiError.new .invalidRequest texts.missingProof)
  ensure (size == blob.2)
    (ApiError.new .internal "canonical object size is invalid")
  let view : TableView <- Script.rows
  ensure (view.rows (.object blob.1)).isSome
    (objectStoreApiError "object not found".toList)

def putObject (blob : BlobId) : Transaction Unit :=
  Script.putObject (.object blob) (some ())

/-- What a request stores of a revision. -/
structure RevisionContent where
  revisionId : RevisionId
  blobs : Blobs
  staged : List BlobId
  snapshot : StoredSnapshot
  metadata : SkillMetadata

/-- The blobs that were not staged. -/
def RevisionContent.proven (content : RevisionContent) : Blobs :=
  content.blobs.filter fun blob => decide (blob.1 ∉ content.staged)

def relyOnObjects (blobs : Blobs) : Transaction Unit :=
  Script.rely (blobs.map fun blob => .stored blob.1)

/-!
## Saves and imports
-/

/-- One blob of a saved revision. -/
def reachBlob (resourceId space : Uuid) (revision : RevisionId)
    (blob : BlobId × Nat) : Transaction Unit := do
  insertRevisionBlob revision blob.1
  addReference resourceId space blob.1

def persistPrivateRevisionStorage (resourceId space : Uuid)
    (content : RevisionContent) : Transaction Unit := do
  Script.each (reachBlob resourceId space content.revisionId) content.blobs
  insertSnapshot resourceId content.revisionId content.snapshot

def setWorkspace (resourceId userId : Uuid) (revision : RevisionId)
    (generation : Generation) (snapshot : StoredSnapshot)
    (metadata : SkillMetadata) : Transaction Unit := do
  let _ <- Script.updateRow (.workspace resourceId userId) fun row =>
    { row with metadata, revisionId := revision, generation, snapshot }

def setResourceMetadata (resourceId : Uuid) (generation : Generation)
    (metadata : SkillMetadata) : Transaction Unit := do
  let _ <- Script.updateRow (.resource resourceId) fun row =>
    { row with generation, metadata }

/-- The first transaction of the commit of a save, and its objects. -/
def readPrivateRevision (authority : UserAuthority)
    (resourceId namespaceId : Uuid) (content : RevisionContent) :
    Transaction Unit := do
  Script.transaction do
    let target <- authorizeResourcePublish authority resourceId
    ensure (namespaceId == target.namespaceId)
      (ApiError.new .unauthorized "private revision namespace is unavailable")
    Script.each (readObject revisionVerificationTexts namespaceId)
      content.proven
  Script.each putObject content.staged

/-- The commit of a save.  Its head may have moved since it was prepared. -/
def commitPrivateRevision (limits : Limits) (authority : UserAuthority)
    (resourceId namespaceId : Uuid) (expectedHead : RevisionId)
    (expectedGeneration : Generation) (content : RevisionContent) :
    Transaction Unit := do
  readPrivateRevision authority resourceId namespaceId content
  Script.transaction do
    relyOnObjects content.blobs
    let target <- authorizeResourcePublish authority resourceId
    ensure (target.namespaceId == namespaceId)
      (ApiError.new .unauthorized "private revision namespace is unavailable")
    let (resource, workspace) <- lockCurrentWorkspace namespaceId resourceId
      authority.userId "private skill not found" "private skill is unavailable"
    let headMatches := workspace.revisionId == expectedHead
    ensure (!headMatches || workspace.generation == expectedGeneration)
      (ApiError.new .generationConflict
        ("private workspace advanced to generation " ++
          toString workspace.generation.value))
    enforceNamespaceQuota limits namespaceId content.blobs
    persistCanonicalBlobs content.blobs
    persistPrivateRevisionStorage resourceId namespaceId content
    if headMatches then
      let nextResource <- Registry.nextResourceGeneration target.isTeam resource
      let nextWorkspace <-
        okOr workspace.generation.checkedSucc workspaceGenerationOverflow
      if target.isTeam = false then
        setResourceMetadata resourceId nextResource content.metadata
      setWorkspace resourceId authority.userId content.revisionId
        nextWorkspace content.snapshot content.metadata

/-- The first transaction of the commit of an import, and its objects. -/
def readPrivateSkillImport (authority : UserAuthority) (targetSlug : Text)
    (namespaceId : Uuid) (content : RevisionContent) : Transaction Unit := do
  Script.transaction do
    let target <- authorizeNamespacePublish authority targetSlug
    ensure (target.namespaceId == namespaceId)
      (ApiError.new .unauthorized "import namespace is unavailable")
    Script.each (readObject importVerificationTexts namespaceId)
      content.proven
  Script.each putObject content.staged

/-- The commit of an import, which locks its namespace. -/
def commitPrivateSkillImport (limits : Limits) (authority : UserAuthority)
    (targetSlug : Text) (namespaceId resourceId : Uuid) (slug : Text)
    (fork : Option ForkRow) (content : RevisionContent) :
    Transaction Unit := do
  readPrivateSkillImport authority targetSlug namespaceId content
  Script.transaction do
    relyOnObjects content.blobs
    let target <- authorizeNamespacePublish authority targetSlug
    ensure (target.namespaceId == namespaceId)
      (ApiError.new .unauthorized "import namespace is unavailable")
    let space : Option Namespace <-
      Script.lockRow (TableKey.namespaceRow namespaceId)
    let _ <- okOr space
      (internalApiError
        "no rows returned by a query that expected to return at least one row")
    let view : TableView <- Script.rows
    ensure (view.skillsNamed namespaceId slug).isEmpty
      (ApiError.new .generationConflict
        (String.ofList (locatorText target.namespaceSlug slug) ++
          " changed while import was in progress"))
    enforceNamespaceQuota limits namespaceId content.blobs
    persistCanonicalBlobs content.blobs
    Script.each (fun blob => insertRevisionBlob content.revisionId blob.1)
      content.blobs
    insertNew (.resource resourceId)
      { id := resourceId
        ownerNamespaceId := namespaceId
        slug
        kind := .skill
        visibility := .priv
        metadata := content.metadata
        generation := .one
        latestReleaseVersion := none
        deprecated := false
        deprecationReplacement := none
        deleted := false }
      "resources_pkey"
    references (.namespaceRow namespaceId)
      "resources_owner_namespace_id_fkey"
    match fork with
    | none => pure ()
    | some row => insertNew (.fork resourceId) row "skill_forks_pkey"
    insertNew (.workspace resourceId authority.userId)
      { resourceId
        workspaceUserId := authority.userId
        metadata := content.metadata
        revisionId := content.revisionId
        generation := .one
        snapshot := content.snapshot }
      "skill_private_workspaces_pkey"
    references (.account authority.userId)
      "skill_private_workspaces_workspace_user_id_fkey"
    insertSnapshot resourceId content.revisionId content.snapshot
    Script.each (fun blob => firstReference resourceId namespaceId blob.1)
      content.blobs

/-!
## Workspaces of maintainers

Three endpoints give a maintainer of a team a workspace: the preparation of a
save, a restore, and the acceptance of a proposal.
-/

/-- The preparation of a save writes only rows of its own. -/
def preparePrivateRevision (authority : UserAuthority) (resourceId : Uuid) :
    Transaction Unit :=
  Script.transaction do
    let target <- authorizeResourcePublish authority resourceId
    ensureTeamWorkspace target resourceId authority.userId
    let _ <- lockCurrentWorkspace target.namespaceId resourceId
      authority.userId "private skill not found" "private skill is unavailable"

/-- One blob of a restored revision. -/
def reachRestoredBlob (resourceId space : Uuid) (revision : RevisionId)
    (blob : BlobId × Nat) : Transaction Unit := do
  insertNewRevisionBlob revision blob.1
  bumpReference resourceId space blob.1

/-- A restore.  The new revision depends on the head that it leaves. -/
def restoreSkill (authority : UserAuthority) (resourceId : Uuid)
    (expectedGeneration : Generation) (target : RevisionId)
    (metadata : SkillMetadata) (newRevision : RevisionId -> RevisionId) :
    Transaction Unit := do
  let missing := ApiError.new .notFound "restore revision not found"
  let unavailable := ApiError.new .unauthorized "owned skill is unavailable"
  let stored : StoredSnapshot <- Script.transaction do
    let authorized <- authorizeResourcePublish authority resourceId
    let view : TableView <- Script.rows
    let stored : StoredSnapshot <- okOr
      (view.rows (.snapshot resourceId target)) missing
    let resource <- okOr
      ((view.rows (.resource resourceId)).filter fun row =>
        decide (row.kind = .skill)) missing
    ensure (resource.ownerNamespaceId == authorized.namespaceId) unavailable
    return stored
  Script.transaction do
    let authorized <- authorizeResourcePublish authority resourceId
    ensureTeamWorkspace authorized resourceId authority.userId
    let (resource, workspace) <- lockCurrentWorkspace authorized.namespaceId
      resourceId authority.userId "owned skill not found"
      "owned skill is unavailable"
    ensure (workspace.generation == expectedGeneration)
      (ApiError.new .generationConflict
        ("private workspace advanced to generation " ++
          toString workspace.generation.value))
    ensure (workspace.revisionId != target)
      (ApiError.new .invalidRequest
        "the requested revision is already the private workspace head")
    let revision := newRevision workspace.revisionId
    let nextWorkspace <-
      okOr workspace.generation.checkedSucc workspaceGenerationOverflow
    let nextResource <-
      Registry.nextResourceGeneration authorized.isTeam resource
    let blobs <- manifestBlobs stored.manifest
    Script.each
      (reachRestoredBlob resourceId authorized.namespaceId revision) blobs
    insertNewSnapshot resourceId revision stored
    if authorized.isTeam = false then
      setResourceMetadata resourceId nextResource metadata
    setWorkspace resourceId authority.userId revision nextWorkspace stored
      metadata

/-- One blob of an accepted revision. -/
def reachAcceptedBlob (session : Session) (resourceId space : Uuid)
    (blob : BlobId × Nat) : Transaction Unit := do
  addReference resourceId space blob.1
  cancelBlobGc session blob.1

/-- The target retains the accepted revision. -/
def attachProposalRevision (limits : Limits) (userId : Uuid)
    (sourceId targetId space : Uuid) (revision : RevisionId) :
    Transaction Unit := do
  let view : TableView <- Script.rows
  match view.rows (.snapshot targetId revision) with
  | some _ => return ()
  | none => do
      let view : TableView <- Script.rows
      let source : StoredSnapshot <- okOr
        (view.rows (.snapshot sourceId revision))
        (ApiError.new .operationConflict "proposal revision is unavailable")
      let blobs <- manifestBlobs source.manifest
      enforceNamespaceQuota limits space blobs
      Script.each (reachAcceptedBlob (.actor userId) targetId space) blobs
      insertNewSnapshot targetId revision source

/-- The rows of a proposal, locked. -/
def lockProposalRows (proposalId : Uuid) :
    Transaction (ProposalRow × ResourceRow × ResourceRow × WorkspaceRow) := do
  let proposal : Option ProposalRow <-
    Script.lockRow (TableKey.proposal proposalId)
  let proposal <- okOr proposal proposalNotFound
  let source : Option ResourceRow <-
    Script.lockRow (TableKey.resource proposal.sourceResourceId)
  let source <- okOr source proposalNotFound
  let target : Option ResourceRow <-
    Script.lockRow (TableKey.resource proposal.targetResourceId)
  let target <- okOr target proposalNotFound
  let workspace : Option WorkspaceRow <- Script.lockRow
    (TableKey.workspace proposal.sourceResourceId proposal.proposerUserId)
  let workspace <- okOr workspace proposalNotFound
  let fork : Option ForkRow <-
    Script.lockRow (TableKey.fork proposal.sourceResourceId)
  let _ <- okOr fork proposalNotFound
  return (proposal, source, target, workspace)

/-- The acceptance of a proposal at the generations that the maintainer has
inspected. -/
def acceptProposal (limits : Limits) (authority : UserAuthority)
    (proposalId : Uuid) (expected : RevisionId)
    (proposalGeneration sourceGeneration targetGeneration : Generation) :
    Transaction Unit :=
  Script.transaction do
    let (proposal, source, target, proposed) <- lockProposalRows proposalId
    let targetId := proposal.targetResourceId
    let authorized <- authorizeResourcePublish authority targetId
    ensure (authorized.namespaceId == target.ownerNamespaceId)
      proposalNotFound
    ensureTeamWorkspace authorized targetId authority.userId
    ensure (decide (proposal.state = .opened))
      (ApiError.new .operationConflict
        ("proposal is already " ++ proposal.state.text))
    ensure (proposal.generation == proposalGeneration)
      (resourceAdvanced proposal.generation)
    ensure (source.generation == sourceGeneration &&
        proposed.revisionId == expected)
      (ApiError.new .generationConflict
        "proposal fork advanced; inspect the current proposal before accepting")
    let workspace : Option WorkspaceRow <-
      Script.lockRow (TableKey.workspace targetId authority.userId)
    let workspace <- okOr workspace
      (ApiError.new .notFound "target workspace not found")
    ensure (workspace.generation == targetGeneration)
      (resourceAdvanced workspace.generation)
    let view : TableView <- Script.rows
    ensure ((view.rows (.fork proposal.sourceResourceId)).any fun row =>
        decide (row.upstreamResourceId = targetId) && !row.promotionPending)
      (ApiError.new .operationConflict
        "proposal source is no longer the target's fork")
    ensure (!source.deleted && !target.deleted)
      (ApiError.new .operationConflict
        "proposal source or target is deleted")
    ensure (source.slug == target.slug)
      (ApiError.new .operationConflict
        "proposal fork name no longer matches upstream; rename the fork to match upstream before accepting")
    attachProposalRevision limits authority.userId proposal.sourceResourceId
      targetId target.ownerNamespaceId expected
    let view : TableView <- Script.rows
    let stored : StoredSnapshot <- okOr
      (view.rows (.snapshot targetId expected))
      (internalApiError
        "no rows returned by a query that expected to return at least one row")
    let nextWorkspace <- nextGeneration workspace.generation
    let nextResource <-
      Registry.nextResourceGeneration authorized.isTeam target
    if authorized.isTeam = false then
      setResourceMetadata targetId nextResource proposed.metadata
    setWorkspace targetId authority.userId expected nextWorkspace stored
      proposed.metadata
    let nextProposal <- nextGeneration proposal.generation
    let _ <- Script.updateRow (.proposal proposalId) fun row =>
      { row with
        generation := nextProposal
        state := .accepted
        closed := some
          { revisionId := expected
            sourceGeneration := source.generation
            userId := authority.userId } }

/-!
## Renames
-/

/-- One blob of a renamed revision. -/
def reachNewBlob (session : Session) (resourceId space : Uuid)
    (revision : RevisionId) (blob : BlobId × Nat) : Transaction Unit := do
  insertNewRevisionBlob revision blob.1
  addReference resourceId space blob.1
  cancelBlobGc session blob.1

/-- The revision of a renamed content. -/
def storeRenamed (limits : Limits) (session : Session)
    (resourceId space : Uuid) (content : RevisionContent) :
    Transaction Unit := do
  enforceNamespaceQuota limits space content.blobs
  persistCanonicalBlobs content.blobs
  Script.each (reachNewBlob session resourceId space content.revisionId)
    content.blobs
  insertNewSnapshot resourceId content.revisionId content.snapshot

def insertRelease (resourceId : Uuid) (version : Generation)
    (row : ReleaseRow) : Transaction Unit := do
  insertNew (.release resourceId version) row "skill_releases_pkey"
  references (.resource resourceId) "skill_releases_resource_id_fkey"

/-- The release of a renamed content, after the latest one. -/
def releaseRenamed (resourceId : Uuid) (latest : Generation)
    (rootTree : TreeId) (author : AuthorPrincipalId)
    (content : RevisionContent) : Transaction Generation := do
  let version <- okOr latest.checkedSucc releaseVersionOverflow
  insertRelease resourceId version {
    resourceId
    version
    revisionId := content.revisionId
    rootTreeId := rootTree
    snapshot := content.snapshot
    authorPrincipalId := author
    message := none
    tags := [] }
  return version

/-- The rename of a personal skill, which locks nothing but the skill. -/
def renamePersonalSkill (limits : Limits) (authority : UserAuthority)
    (resourceId : Uuid) (expectedGeneration : Generation)
    (currentName newName : Text) (content : RevisionContent) :
    Transaction Unit := do
  Script.each (fun blob => putObject blob.1) content.blobs
  Script.transaction do
    relyOnObjects content.blobs
    let resource : Option ResourceRow <-
      Script.lockRow (TableKey.resource resourceId)
    let resource <- okOr
      (resource.filter fun row => decide (row.kind = .skill) && !row.deleted)
      (ApiError.new .notFound "owned skill not found")
    ensure (resource.ownerNamespaceId == authority.namespaceId)
      ownedSkillUnavailable
    ensure (resource.generation == expectedGeneration &&
        resource.slug == currentName)
      (resourceAdvanced resource.generation)
    let view : TableView <- Script.rows
    ensure ((view.skillsNamed authority.namespaceId newName).all fun id =>
        decide (id = resourceId))
      (Registry.alreadyExists authority.namespaceSlug newName)
    storeRenamed limits (.actor authority.userId) resourceId
      authority.namespaceId content
    let generation <- nextGeneration resource.generation
    let version <- match resource.visibility with
      | .priv => pure none
      | .pub => do
          let latest <- okOr resource.latestReleaseVersion
            (ApiError.new .internal
              "public skill is missing its latest release")
          let version <- releaseRenamed resourceId latest
            content.snapshot.manifest.rootTree authority.authorPrincipalId
            content
          pure (some version)
    let _ <- Script.updateRow (.resource resourceId) fun row =>
      { row with
        slug := newName
        metadata := content.metadata
        generation
        latestReleaseVersion := version.or resource.latestReleaseVersion }
    setWorkspace resourceId authority.userId content.revisionId generation
      content.snapshot content.metadata

/-- The workspaces of a team skill, locked one by one. -/
def lockTeamWorkspaces (resourceId : Uuid) :
    Transaction (List WorkspaceRow) := do
  let view : TableView <- Script.rows
  lockEach (sortByKey Vector.toList (view.workspacesOf resourceId))
where
  lockEach : List Uuid -> Transaction (List WorkspaceRow)
    | [] => return []
    | user :: rest => do
        let row : Option WorkspaceRow <-
          Script.lockRow (TableKey.workspace resourceId user)
        let others <- lockEach rest
        return row.toList ++ others

/-- Store the contents of a team rename, each revision once. -/
def storeTeamRenamed (limits : Limits) (resourceId space : Uuid) :
    List RevisionId -> List RevisionContent -> Transaction Unit
  | _, [] => return ()
  | seen, content :: rest => do
      if content.revisionId ∈ seen then
        storeTeamRenamed limits resourceId space seen rest
      else do
        storeRenamed limits .worker resourceId space content
        storeTeamRenamed limits resourceId space (content.revisionId :: seen)
          rest

/-- The rename of a team skill, as the worker. -/
def renameTeamSkill (limits : Limits) (authority : UserAuthority)
    (resourceId : Uuid) (source : TeamRenameSource) (newName : Text)
    (workspaces : List (WorkspaceRow × RevisionContent))
    (release : Option (Generation × RevisionContent)) :
    Transaction Unit := do
  let contents := workspaces.map Prod.snd ++ (release.map Prod.snd).toList
  Script.each
    (fun content : RevisionContent =>
      Script.each (fun blob => putObject blob.1) content.blobs)
    contents
  Script.transaction do
    Script.each (fun content : RevisionContent => relyOnObjects content.blobs)
      contents
    let target <- authorizeResourcePublish authority resourceId
    ensure (target.isTeam && target.namespaceId == source.ownerNamespaceId)
      teamSkillUnavailable
    let locked : Option ResourceRow <-
      Script.lockRow (TableKey.resource resourceId)
    let locked <- okOr
      (locked.filter fun row => decide (row.kind = .skill) && !row.deleted)
      (ApiError.new .notFound "team skill not found")
    ensure (locked.ownerNamespaceId == source.ownerNamespaceId &&
        locked.slug == source.name && locked.generation == source.generation &&
        locked.latestReleaseVersion == source.latestReleaseVersion)
      (resourceAdvanced locked.generation)
    let current <- lockTeamWorkspaces resourceId
    Db.ensureWorkspacesUnchanged (workspaces.map Prod.fst) current
    let view : TableView <- Script.rows
    ensure ((view.skillsNamed source.ownerNamespaceId newName).all fun id =>
        decide (id = resourceId))
      (Registry.alreadyExists source.owner newName)
    storeTeamRenamed limits resourceId source.ownerNamespaceId [] contents
    Script.each
      (fun move : WorkspaceRow × RevisionContent => do
        let generation <-
          okOr move.1.generation.checkedSucc workspaceGenerationOverflow
        let _ <- Script.updateRow
          (.workspace resourceId move.1.workspaceUserId) fun row =>
            { row with
              metadata :=
                { row.metadata with
                  description := move.2.metadata.description }
              revisionId := move.2.revisionId
              generation
              snapshot := move.2.snapshot })
      workspaces
    let version <- match release with
      | none => pure none
      | some (latest, content) => do
          let version <- releaseRenamed resourceId latest
            content.snapshot.manifest.rootTree authority.authorPrincipalId
            content
          pure (some version)
    let generation <- nextGeneration source.generation
    let _ <- Script.updateRow (.resource resourceId) fun row =>
      { row with
        slug := newName
        generation
        latestReleaseVersion := version.or source.latestReleaseVersion }

end Transaction
end Denju
