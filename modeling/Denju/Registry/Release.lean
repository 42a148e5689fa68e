import Denju.Registry.Branches

/-!
# Releases and restored revisions

Publishing releases the head of a private workspace.  A maintainer who is
behind the latest release of a team gets a workspace conflict with it.
Restoring puts an earlier revision back at the head of a workspace, as a new
revision.
-/

namespace Denju

open Lib

def locator (owner name : Text) : Text :=
  "@".toList ++ owner ++ "/".toList ++ name

def isTagByte (byte : UInt8) : Bool :=
  (48 ≤ byte && byte ≤ 57) || (65 ≤ byte && byte ≤ 90) ||
    (97 ≤ byte && byte ≤ 122) || byte == 46 || byte == 95 || byte == 45

def checkTag (unique : List Text) (tag : Text) :
    Except ApiError (List Text) := do
  ensure (!tag.isEmpty && (utf8 tag).length ≤ 64 && (utf8 tag).all isTagByte)
    (ApiError.new .invalidRequest
      "release tags must be 1-64 ASCII letters, digits, '.', '_' or '-'")
  ensure (decide (tag ∉ unique))
    (ApiError.new .invalidRequest "release tags must be unique")
  return unique ++ [tag]

def validateReleaseMetadata (message : Option Text) (tags : List Text) :
    Except ApiError Unit := do
  ensure (message.all fun text => (utf8 text).length ≤ 4096)
    (ApiError.new .invalidRequest "release message exceeds 4096 bytes")
  let _ <- tags.foldlM checkTag []

namespace Db

/-!
## Recorded operations
-/

def findOperation {β : Type} (rows : List (OperationRow β)) (user : Uuid)
    (operationId : OperationId) : Option (OperationRow β) :=
  rows.find? fun row => row.userId = user ∧ row.operationId = operationId

/-- The stored answer of a request that was recorded before. -/
def replayOperation {β : Type} (rows : List (OperationRow β)) (user : Uuid)
    (operationId : OperationId) (hash : RequestHash) (target : Uuid)
    (mismatch : String) : Except ApiError (Option β) :=
  match findOperation rows user operationId with
  | none => .ok none
  | some row => do
      ensure (row.requestHash == hash && row.target == target)
        (ApiError.new .operationConflict mismatch)
      return some row.outcome

/-- Record the answer of a request under its key. -/
def recordOperation {β : Type} (rows : List (OperationRow β))
    (row : OperationRow β) (key : String) :
    Except ApiError (List (OperationRow β)) := do
  ensure (findOperation rows row.userId row.operationId).isNone
    (internalApiError key)
  return rows ++ [row]

/-- Only a request that was not recorded has no stored answer. -/
theorem replayOperation_eq_none {β : Type} {rows : List (OperationRow β)}
    {user : Uuid} {operationId : OperationId} {hash : RequestHash}
    {target : Uuid} {mismatch : String}
    (h : replayOperation rows user operationId hash target mismatch =
      .ok none) : findOperation rows user operationId = none := by
  unfold replayOperation at h
  split at h
  · assumption
  · rcases bind_eq_ok.mp h with ⟨_, _, h⟩
    cases h

/-!
## Releases
-/

def findRelease (db : Db) (resourceId : Uuid) (version : Generation) :
    Option ReleaseRow :=
  db.releases.find? fun row =>
    row.resourceId = resourceId ∧ row.version = version

/-- Store a release; its version, its revision and its tags are new. -/
def insertRelease (db : Db) (row : ReleaseRow) : Except ApiError Db := do
  ensure (db.findRelease row.resourceId row.version).isNone
    (internalApiError "skill_releases_pkey")
  ensure (!db.released row.resourceId row.revisionId)
    (internalApiError "skill_releases_resource_id_revision_id_key")
  ensure (row.tags.all fun tag => !db.releases.any fun release =>
      decide (release.resourceId = row.resourceId ∧ tag ∈ release.tags))
    (internalApiError "skill_release_tags_pkey")
  return { db with releases := db.releases ++ [row] }

/-- What a skill says about its deprecation to a user. -/
def deprecation (db : Db) (user : Uuid) (resource : ResourceRow) :
    Option SkillDeprecation :=
  if resource.deprecated then
    let replacement := do
      let id <- resource.deprecationReplacement
      (db.findResource id).filter fun row =>
        !row.deleted && db.canReadResource user id
    some {
      replacementResourceId := replacement.map ResourceRow.id
      replacementLocator := do
        let row <- replacement
        let owner <- db.directory.namespaceById row.ownerNamespaceId
        return locator owner.slug row.slug }
  else none

def revisionIsAncestor (db : Db) (user : Uuid)
    (ancestor descendant : RevisionId) : Bool :=
  ancestor ∈ ancestry (db.readableEdges user) descendant

/-- The first candidate of a merge base is the nearest one. -/
def nearer (a b : Nat × Nat × RevisionId) : Bool :=
  a.1 < b.1 || (a.1 == b.1 && (a.2.1 < b.2.1 ||
    (a.2.1 == b.2.1 && decide (a.2.2.key ≤ b.2.2.key))))

def nearest : List (Nat × Nat × RevisionId) -> Option RevisionId
  | [] => none
  | first :: rest =>
      some (rest.foldl (fun best other =>
        if nearer best other then best else other) first).2.2

/-- The common ancestors of two revisions, each with its distances. -/
def commonAncestors (edges : List (RevisionId × RevisionId))
    (left right : RevisionId) : List (Nat × Nat × RevisionId) :=
  let rightDepths := ancestryDepths edges 4096 right
  (ancestryDepths edges 4096 left).filterMap fun candidate =>
    (rightDepths.lookup candidate.1).map fun depth =>
      (max candidate.2 depth, candidate.2 + depth, candidate.1)

/-- The merge base of two revisions in a part of the revision graph. -/
def mergeBaseOver (edges : List (RevisionId × RevisionId))
    (left right : RevisionId) : Except ApiError RevisionId :=
  okOr (nearest (commonAncestors edges left right))
    (ApiError.new .generationConflict
      "maintainer workspace and latest team release have no common revision ancestry")

def mergeBase (db : Db) (user : Uuid) (left right : RevisionId) :
    Except ApiError RevisionId :=
  mergeBaseOver (db.readableEdges user) left right

def enqueueSkillReleaseWake (db : Db) (resourceId : Uuid) (generation : Nat)
    (release : ReleaseEvent) : Db :=
  db.enqueueWake resourceId generation (some release)

end Db

def releaseVersionOverflow : ApiError :=
  ApiError.new .internal "release version overflow"

def nextReleaseVersion (latest : Option Generation) :
    Except ApiError Generation :=
  match latest with
  | none => .ok .one
  | some version => okOr version.checkedSucc releaseVersionOverflow

/-- What a publishing request has found out. -/
structure PublishContext where
  authority : UserAuthority
  request : PublishSkillRequest
  isTeam : Bool
  owner : Text
  resource : ResourceRow
  workspace : WorkspaceRow

namespace PublishContext

variable (context : PublishContext)

def publishPublic : Bool :=
  !context.isTeam || decide (context.resource.visibility = .pub) ||
    context.request.isPublic

def outcome (db : Db) (generation version : Generation)
    (message : Option Text) (tags : List Text) : PublishSkillResponse where
  skill :=
    { resourceId := context.request.resourceId
      locator := locator context.owner context.resource.slug
      owner := context.owner
      name := context.resource.slug
      description := context.workspace.metadata.description
      generation := generation.value
      version := some version.value
      livePrivate := false
      revisionId := context.workspace.revisionId
      deprecation := db.deprecation context.authority.userId context.resource }
  release :=
    { version := version.value
      revisionId := context.workspace.revisionId
      message
      tags }

def recordRelease (outcome : PublishSkillResponse) (db : Db) :
    Except ApiError Db := do
  let rows <- Db.recordOperation db.releaseOperations
    { userId := context.authority.userId
      operationId := context.request.operationId
      requestHash := context.request.requestHash
      target := context.request.resourceId
      outcome }
    "skill_release_operations_pkey"
  return { db with releaseOperations := rows }

/-- The latest release is the head already; the skill becomes public. -/
def makePublic (release : ReleaseRow) (db : Db) :
    Except ApiError (PublishSkillResponse × Db) := do
  let generation <- okOr context.resource.generation.checkedSucc
    resourceGenerationOverflow
  let outcome := context.outcome db generation release.version release.message
    (sortByKey utf8 release.tags)
  let db := { db with
    resources := updateWhere (fun row => row.id = context.request.resourceId)
      (fun row => { row with visibility := .pub, generation }) db.resources }
  let db <- context.recordRelease outcome db
  return (outcome,
    db.enqueueResourceWake context.request.resourceId generation.value)

/-- The release of the head, stored if its revision can be read. -/
def insertHeadRelease (version : Generation) (db : Db) :
    Except ApiError Db := do
  match (db.findRevision context.workspace.revisionId).filter fun row =>
      db.canReadRevision context.authority.userId row.revisionId with
  | some revision =>
      db.insertRelease
        { resourceId := context.request.resourceId
          version
          revisionId := context.workspace.revisionId
          rootTreeId := revision.rootTreeId
          snapshot := context.workspace.snapshot
          authorPrincipalId := context.authority.authorPrincipalId
          message := context.request.message
          tags := context.request.tags }
  | none => do
      ensure context.request.tags.isEmpty
        (internalApiError "skill_release_tags_resource_id_version_fkey")
      return db

/-- Release the head of the workspace. -/
def releaseHead (db : Db) : Except ApiError (PublishSkillResponse × Db) := do
  let version <- nextReleaseVersion context.resource.latestReleaseVersion
  let generation <- okOr context.resource.generation.checkedSucc
    resourceGenerationOverflow
  let outcome := context.outcome db generation version context.request.message
    context.request.tags
  let db <- context.insertHeadRelease version db
  let db := { db with
    resources := updateWhere (fun row => row.id = context.request.resourceId)
      (fun row =>
        { row with
          visibility := if context.publishPublic then .pub else .priv
          latestReleaseVersion := some version
          generation
          metadata := context.workspace.metadata })
      db.resources }
  let db <- context.recordRelease outcome db
  return (outcome,
    db.enqueueSkillReleaseWake context.request.resourceId generation.value
      { releaseVersion := version.value
        revisionId := context.workspace.revisionId })

/-- A maintainer behind the latest release of the team gets a conflict. -/
def conflictWithRelease (newConflictId : Uuid) (release : ReleaseRow)
    (db : Db) : Except ApiError Db :=
  let user := context.authority.userId
  match db.activeConflict context.request.resourceId user with
  | some _ => .ok db
  | none => do
      let base <- db.mergeBase user context.workspace.revisionId
        release.revisionId
      let (_, db) <- db.recordWorkspaceConflict newConflictId
        context.request.resourceId user base release.revisionId
        context.workspace.revisionId context.workspace.generation
      return db

end PublishContext

def anotherMaintainerPublished : ApiError :=
  ApiError.new .generationConflict
    "another maintainer published first; merge the newer team release into this private workspace and retry"

namespace Registry

/-- Publish over an existing release.  An answered error keeps its writes. -/
def publishOverRelease (newConflictId : Uuid) (context : PublishContext)
    (latest : Generation) (db : Db) :
    Except ApiError (Except ApiError PublishSkillResponse × Db) := do
  let user := context.authority.userId
  let release <- okOr
    ((db.findRelease context.request.resourceId latest).filter
      (db.releaseVisible user))
    (internalApiError "no rows returned by a query that expected to return at least one row")
  if release.revisionId = context.workspace.revisionId then
    ensure (!decide (context.resource.visibility = .pub) &&
        context.publishPublic)
      (ApiError.new .invalidRequest
        "the private workspace has no unpublished changes")
    let (outcome, db) <- context.makePublic release db
    return (.ok outcome, db)
  else if context.isTeam && !db.revisionIsAncestor user release.revisionId
      context.workspace.revisionId then
    let db <- context.conflictWithRelease newConflictId release db
    return (.error anotherMaintainerPublished, db)
  else
    let (outcome, db) <- context.releaseHead db
    return (.ok outcome, db)

/-- The workspace that a publishing request names. -/
def publishContext (authority : UserAuthority) (request : PublishSkillRequest)
    (db : Db) : Except ApiError PublishContext := do
  let target <- db.authorizeResourcePublish authority request.resourceId
  let (resource, workspace) <- db.currentWorkspace request.resourceId
    authority.userId "owned skill not found"
  let owner <- okOr (db.directory.namespaceById resource.ownerNamespaceId)
    (ApiError.new .notFound "owned skill not found")
  ensure (resource.ownerNamespaceId == target.namespaceId)
    (ApiError.new .unauthorized "owned skill is unavailable")
  let expectedGeneration <- i64TryFrom request.expectedGeneration
    (ApiError.new .invalidRequest "generation exceeds database range")
  ensure (workspace.generation.value == expectedGeneration)
    (ApiError.new .generationConflict
      ("private workspace advanced to generation " ++
        toString workspace.generation.value))
  return {
    authority
    request
    isTeam := target.isTeam
    owner := owner.slug
    resource
    workspace }

def publishWorkspace (newConflictId : Uuid) (context : PublishContext)
    (db : Db) :
    Except ApiError (Except ApiError PublishSkillResponse × Db) :=
  match context.resource.latestReleaseVersion with
  | some latest => publishOverRelease newConflictId context latest db
  | none => do
      let (outcome, db) <- context.releaseHead db
      return (.ok outcome, db)

variable (self : Registry)

/-- Publish in one transaction.  The answer of a committed transaction may
still be an error. -/
def publishSkill (newConflictId userId : Uuid) (request : PublishSkillRequest)
    (db : Db) :
    Except ApiError (Except ApiError PublishSkillResponse × Db) := do
  let authority <- db.directory.userAuthority userId
  checkRequestHash request.requestHash
    (self.hashes.publishSkill request.toPublishSkillRequestHashInput)
    "request_hash does not match the canonical publish payload"
  validateReleaseMetadata request.message request.tags
  let replay <- Db.replayOperation db.releaseOperations authority.userId
    request.operationId request.requestHash request.resourceId
    "operation_id was already used with different publish content"
  match replay with
  | some outcome => return (.ok outcome, db)
  | none => do
      let context <- publishContext authority request db
      publishWorkspace newConflictId context db

end Registry

/-!
## What publishing writes
-/

theorem Db.recordOperation_eq_ok {β : Type} {rows rows' : List (OperationRow β)}
    {row : OperationRow β} {key : String}
    (h : recordOperation rows row key = .ok rows') :
    rows' = rows ++ [row] ∧
      findOperation rows row.userId row.operationId = none := by
  rcases bind_eq_ok.mp h with ⟨_, hnone, h⟩
  cases h
  exact ⟨rfl, by simpa using hnone⟩

theorem Db.insertRelease_eq_ok {db db' : Db} {row : ReleaseRow}
    (h : db.insertRelease row = .ok db') :
    db' = { db with releases := db.releases ++ [row] } ∧
      db.findRelease row.resourceId row.version = none := by
  rcases bind_eq_ok.mp h with ⟨_, hversion, h⟩
  rcases bind_eq_ok.mp h with ⟨_, _, h⟩
  rcases bind_eq_ok.mp h with ⟨_, _, h⟩
  cases h
  exact ⟨rfl, by simpa using hversion⟩

/-- What the release of a head stores: a row, unless the revision of the head
cannot be read. -/
def PublishContext.HeadReleased (context : PublishContext)
    (version : Generation) (db : Db) (releases : List ReleaseRow) : Prop :=
  (exists row : ReleaseRow, releases = db.releases ++ [row] ∧
      row.resourceId = context.request.resourceId ∧ row.version = version ∧
        row.revisionId = context.workspace.revisionId ∧
          db.findRelease context.request.resourceId version = none) ∨
    (releases = db.releases ∧
      forall row, db.findRevision context.workspace.revisionId = some row ->
        db.canReadRevision context.authority.userId
          context.workspace.revisionId = false)

theorem PublishContext.insertHeadRelease_eq_ok {context : PublishContext}
    {version : Generation} {db db' : Db}
    (h : context.insertHeadRelease version db = .ok db') :
    exists releases, db' = { db with releases } ∧
      context.HeadReleased version db releases := by
  unfold insertHeadRelease at h
  split at h
  · rcases Db.insertRelease_eq_ok h with ⟨hdb', hnone⟩
    exact ⟨_, hdb', .inl ⟨_, rfl, rfl, rfl, rfl, hnone⟩⟩
  · rename_i hunread
    rcases bind_eq_ok.mp h with ⟨_, _, h⟩
    cases h
    refine ⟨db.releases, rfl, .inr ⟨rfl, ?_⟩⟩
    intro row hrow
    have hid : row.revisionId = context.workspace.revisionId := by
      simpa using List.find?_some hrow
    rw [hrow, Option.filter_some] at hunread
    split at hunread
    · cases hunread
    · rename_i hread
      rw [hid] at hread
      simpa using hread

/-- What a publishing request finds. -/
structure PublishFound (context : PublishContext) (db : Db) : Prop where
  target : exists target,
    db.authorizeResourcePublish context.authority
        context.request.resourceId = .ok target ∧
      context.isTeam = target.isTeam
  resource : db.findResource context.request.resourceId =
    some context.resource
  kind : context.resource.kind = .skill
  workspace : db.workspace context.request.resourceId
    context.authority.userId = some context.workspace

/-- How a publishing request changes the database. -/
inductive PublishWritten (newConflictId : Uuid) (context : PublishContext)
    (db db' : Db) : Prop where
  | kept : db' = db -> PublishWritten newConflictId context db db'
  | madePublic (generation : Generation)
      (operations : List (OperationRow PublishSkillResponse)) :
      context.resource.latestReleaseVersion.isSome ->
      db' =
        ({ db with
          resources := updateWhere
            (fun row => row.id = context.request.resourceId)
            (fun row => { row with visibility := .pub, generation })
            db.resources
          releaseOperations := operations } : Db).enqueueResourceWake
            context.request.resourceId generation.value ->
        PublishWritten newConflictId context db db'
  | released (version generation : Generation) (releases : List ReleaseRow)
      (operations : List (OperationRow PublishSkillResponse)) :
      nextReleaseVersion context.resource.latestReleaseVersion = .ok version ->
      context.HeadReleased version db releases ->
      db' =
        ({ db with
          releases
          resources := updateWhere
            (fun row => row.id = context.request.resourceId)
            (fun row =>
              { row with
                visibility := if context.publishPublic then .pub else .priv
                latestReleaseVersion := some version
                generation
                metadata := context.workspace.metadata })
            db.resources
          releaseOperations := operations } : Db).enqueueSkillReleaseWake
            context.request.resourceId generation.value
            { releaseVersion := version.value
              revisionId := context.workspace.revisionId } ->
        PublishWritten newConflictId context db db'
  | raised (row : WorkspaceConflictRow) (base detached : RevisionId) :
      db.activeConflict context.request.resourceId context.authority.userId =
        none ->
      db' = { db with conflicts := db.conflicts ++ [row] } ->
      Db.Raised newConflictId context.request.resourceId
        context.authority.userId base detached context.workspace.revisionId
        db.conflicts row ->
        PublishWritten newConflictId context db db'

namespace PublishContext

variable {newConflictId : Uuid} {context : PublishContext} {db db' : Db}
  {outcome : PublishSkillResponse}

theorem recordRelease_frame
    (h : context.recordRelease outcome db = .ok db') :
    exists operations, db' = { db with releaseOperations := operations } := by
  rcases bind_eq_ok.mp h with ⟨rows, _, h⟩
  cases h
  exact ⟨rows, rfl⟩

theorem makePublic_written {release : ReleaseRow}
    (hlatest : context.resource.latestReleaseVersion.isSome)
    (h : context.makePublic release db = .ok (outcome, db')) :
    PublishWritten newConflictId context db db' := by
  rcases bind_eq_ok.mp h with ⟨generation, _, h⟩
  rcases bind_eq_ok.mp h with ⟨recorded, hrecorded, h⟩
  rcases recordRelease_frame hrecorded with ⟨operations, rfl⟩
  cases h
  exact .madePublic generation operations hlatest rfl

theorem releaseHead_written
    (h : context.releaseHead db = .ok (outcome, db')) :
    PublishWritten newConflictId context db db' := by
  rcases bind_eq_ok.mp h with ⟨version, hversion, h⟩
  rcases bind_eq_ok.mp h with ⟨generation, _, h⟩
  rcases bind_eq_ok.mp h with ⟨stored, hstored, h⟩
  rcases bind_eq_ok.mp h with ⟨recorded, hrecorded, h⟩
  rcases insertHeadRelease_eq_ok hstored with ⟨releases, rfl, hreleased⟩
  rcases recordRelease_frame hrecorded with ⟨operations, rfl⟩
  cases h
  exact .released version generation releases operations hversion hreleased rfl

theorem conflictWithRelease_written {release : ReleaseRow}
    (h : context.conflictWithRelease newConflictId release db = .ok db') :
    PublishWritten newConflictId context db db' := by
  unfold conflictWithRelease at h
  dsimp only at h
  split at h
  · cases h
    exact .kept rfl
  · rename_i hnone
    rcases bind_eq_ok.mp h with ⟨base, _, h⟩
    rcases bind_eq_ok.mp h with ⟨⟨conflict, recorded⟩, hrecorded, h⟩
    cases h
    rcases Db.recordWorkspaceConflict_eq_ok hrecorded hnone with
      ⟨row, hdb', hraised⟩
    exact .raised row base release.revisionId hnone hdb' hraised

end PublishContext

namespace Registry

variable {registry : Registry} {newConflictId userId : Uuid} {db db' : Db}
  {answer : Except ApiError PublishSkillResponse}

theorem publishContext_eq_ok {authority : UserAuthority}
    {request : PublishSkillRequest} {context : PublishContext}
    (h : publishContext authority request db = .ok context) :
    context.authority = authority ∧ context.request = request ∧
      PublishFound context db := by
  rcases bind_eq_ok.mp h with ⟨target, htarget, h⟩
  rcases bind_eq_ok.mp h with ⟨⟨resource, workspace⟩, hcurrent, h⟩
  rcases bind_eq_ok.mp h with ⟨owner, _, h⟩
  rcases bind_eq_ok.mp h with ⟨_, _, h⟩
  rcases bind_eq_ok.mp h with ⟨_, _, h⟩
  rcases bind_eq_ok.mp h with ⟨_, _, h⟩
  cases h
  rcases Db.currentWorkspace_eq_ok hcurrent with
    ⟨hresource, hkind, _, hworkspace⟩
  exact ⟨rfl, rfl, ⟨⟨target, htarget, rfl⟩, hresource, hkind, hworkspace⟩⟩

theorem publishWorkspace_eq_ok {context : PublishContext}
    (h : publishWorkspace newConflictId context db = .ok (answer, db')) :
    PublishWritten newConflictId context db db' := by
  unfold publishWorkspace at h
  split at h
  · rename_i latest hlatest
    rcases bind_eq_ok.mp h with ⟨release, _, h⟩
    split at h
    · rcases bind_eq_ok.mp h with ⟨_, _, h⟩
      rcases bind_eq_ok.mp h with ⟨⟨outcome, published⟩, hpublished, h⟩
      cases h
      exact PublishContext.makePublic_written (by simp [hlatest]) hpublished
    · split at h
      · rcases bind_eq_ok.mp h with ⟨raised, hraised, h⟩
        cases h
        exact PublishContext.conflictWithRelease_written hraised
      · rcases bind_eq_ok.mp h with ⟨⟨outcome, published⟩, hpublished, h⟩
        cases h
        exact PublishContext.releaseHead_written hpublished
  · rcases bind_eq_ok.mp h with ⟨⟨outcome, published⟩, hpublished, h⟩
    cases h
    exact PublishContext.releaseHead_written hpublished

theorem publishSkill_eq_ok {request : PublishSkillRequest}
    (h : registry.publishSkill newConflictId userId request db =
      .ok (answer, db')) :
    db' = db ∨ exists context,
      db.directory.userAuthority userId = .ok context.authority ∧
        PublishFound context db ∧
          PublishWritten newConflictId context db db' := by
  rcases bind_eq_ok.mp h with ⟨authority, hauthority, h⟩
  rcases bind_eq_ok.mp h with ⟨_, _, h⟩
  rcases bind_eq_ok.mp h with ⟨_, _, h⟩
  rcases bind_eq_ok.mp h with ⟨replay, _, h⟩
  split at h
  · cases h
    exact .inl rfl
  · rcases bind_eq_ok.mp h with ⟨context, hcontext, h⟩
    have hwritten := publishWorkspace_eq_ok h
    rcases publishContext_eq_ok hcontext with ⟨rfl, _, hfound⟩
    exact .inr ⟨context, hauthority, hfound, hwritten⟩

end Registry

/-!
## Restoring a revision
-/

structure SkillAccess where
  userId : Uuid
  visibility : Visibility
  teamOwned : Bool
  ownerAccess : Bool
  sharedAccess : Bool
  teamReleaseAccess : Bool
  workspaceAccess : Bool

namespace SkillAccess

variable (access : SkillAccess)

def canReadPrivate : Bool :=
  access.ownerAccess || (access.sharedAccess && !access.teamOwned)

def canReadReleased : Bool :=
  decide (access.visibility = .pub) || access.teamReleaseAccess ||
    access.sharedAccess || access.ownerAccess

end SkillAccess

namespace Db

def skillAccessForUser (db : Db) (user namespaceId resourceId : Uuid) :
    Except ApiError SkillAccess := do
  let notFound := ApiError.new .notFound "skill not found"
  let row <- okOr
    ((db.findResource resourceId).filter fun row =>
      decide (row.kind = .skill) && !row.deleted &&
        db.canReadResource user resourceId)
    notFound
  let owner <- okOr (db.directory.namespaceById row.ownerNamespaceId) notFound
  return {
    userId := user
    visibility := row.visibility
    teamOwned := owner.kind = .team
    ownerAccess := owner.kind = .user ∧ row.ownerNamespaceId = namespaceId
    sharedAccess := db.sharedWith resourceId user
    teamReleaseAccess := owner.kind = .team ∧
      (db.directory.membership row.ownerNamespaceId user).isSome
    workspaceAccess := (db.workspace resourceId user).isSome }

def userCanReadRevision (db : Db) (access : SkillAccess) (resourceId : Uuid)
    (revision : RevisionId) : Bool :=
  if access.canReadPrivate then
    db.snapshots.any fun row =>
      decide (row.resourceId = resourceId ∧ row.revisionId = revision) &&
        db.snapshotVisible access.userId row
  else
    (access.workspaceAccess &&
      decide (revision ∈ db.workspaceAncestry
        (db.readableEdges access.userId) resourceId access.userId)) ||
      (access.canReadReleased &&
        db.releases.any fun row =>
          decide (row.resourceId = resourceId ∧ row.revisionId = revision) &&
            db.releaseVisible access.userId row)

/-- Reach one blob of a restored revision.  Its archive is that of an earlier
revision, so the counts of its blobs exist. -/
def reachRestoredBlob (resourceId namespaceId : Uuid) (revision : RevisionId)
    (db : Db) (blob : BlobId × Nat) : Except ApiError Db := do
  let db <- db.insertNewRevisionBlob ⟨revision, blob.1⟩
  return db.bumpReference resourceId namespaceId blob.1

end Db

/-- A restore between its transactions. -/
structure PendingRestore where
  authority : UserAuthority
  request : RestoreSkillRequest
  content : VerifiedContent

def storedSkillError (source : SkillValidationError) : ApiError :=
  { code := .internal, message := .skill source }

def storedSnapshotError (source : SnapshotError) : ApiError :=
  { code := .internal, message := .snapshot source }

namespace Registry

variable (self : Registry)

/-- Read back a stored archive and the metadata of its document. -/
def readStoredContent (store : ObjectStore) (name : Text)
    (stored : StoredSnapshot) :
    Except ApiError (List OwnedSkillEntry × SkillMetadata) := do
  let bytes <- (store.get stored.snapshotKey).mapError objectStoreApiError
  let entries <- (validateSkillSnapshot self.ext name stored.manifest
    bytes).mapError storedSnapshotError
  let skillMd <- okOr (skillMdBytes entries)
    (ApiError.new .internal "stored revision is missing SKILL.md")
  let document <- (parseSkillDocument self.ext name skillMd).mapError
    storedSkillError
  return (entries, documentMetadata document)

/-- The stored archive of the revision to restore. -/
def restoreTarget (store : ObjectStore) (authority : UserAuthority)
    (request : RestoreSkillRequest) (db : Db) :
    Except ApiError PendingRestore := do
  let target <- db.authorizeResourcePublish authority request.resourceId
  let access <- db.skillAccessForUser authority.userId authority.namespaceId
    request.resourceId
  let notFound := ApiError.new .notFound "restore revision not found"
  ensure (db.userCanReadRevision access request.resourceId
    request.targetRevisionId) notFound
  let row <- okOr
    ((db.findSnapshot request.resourceId request.targetRevisionId).filter
      (db.snapshotVisible authority.userId))
    notFound
  let resource <- okOr
    ((db.findResource request.resourceId).filter fun row => row.kind = .skill)
    notFound
  ensure (resource.ownerNamespaceId == target.namespaceId)
    (ApiError.new .unauthorized "owned skill is unavailable")
  let (_, metadata) <- self.readStoredContent store resource.slug row.snapshot
  return { authority, request, content := { snapshot := row.snapshot, metadata } }

/-- The first transactions of a restore. -/
def readRestore (store : ObjectStore) (userId : Uuid)
    (request : RestoreSkillRequest) (db : Db) :
    Except ApiError (PrivateRevisionResponse ⊕ PendingRestore) := do
  let authority <- db.directory.userAuthority userId
  checkRequestHash request.requestHash
    (self.hashes.restoreSkill request.toRestoreSkillRequestHashInput)
    "request_hash does not match the canonical restore payload"
  let replay <- Db.replayOperation db.restoreOperations authority.userId
    request.operationId request.requestHash request.resourceId
    "operation_id was already used with different restore content"
  match replay with
  | some outcome => return .inl outcome
  | none => do
      let plan <- self.restoreTarget store authority request db
      return .inr plan

/-- Store the restored revision. -/
def storeRestored (plan : PendingRestore) (namespaceId : Uuid)
    (parent revision : RevisionId) (db : Db) : Except ApiError Db := do
  let manifest := plan.content.snapshot.manifest
  let db <- db.insertRevision (.actor plan.authority.userId)
    { revisionId := revision
      rootTreeId := manifest.rootTree
      authorPrincipalId := plan.authority.authorPrincipalId
      operationId := plan.request.operationId }
  let db <- db.insertNewParent ⟨revision, parent, 0⟩
  let blobs <- manifestBlobs manifest
  let db <- blobs.foldlM
    (Db.reachRestoredBlob plan.request.resourceId namespaceId revision) db
  db.insertNewSnapshot
    { resourceId := plan.request.resourceId
      revisionId := revision
      snapshot := plan.content.snapshot }

def recordRestore (plan : PendingRestore) (outcome : PrivateRevisionResponse)
    (db : Db) : Except ApiError Db := do
  let rows <- Db.recordOperation db.restoreOperations
    { userId := plan.authority.userId
      operationId := plan.request.operationId
      requestHash := plan.request.requestHash
      target := plan.request.resourceId
      outcome }
    "skill_restore_operations_pkey"
  return { db with restoreOperations := rows }

/-- Move the head of the workspace to the restored revision. -/
def moveToRestored (plan : PendingRestore) (target : NamespacePublishAuthority)
    (resource : ResourceRow) (workspace : WorkspaceRow) (db : Db) :
    Except ApiError (PrivateRevisionResponse × Db) := do
  let manifest := plan.content.snapshot.manifest
  let revision <-
    (Revision.new manifest.rootTree [workspace.revisionId]
      plan.authority.authorPrincipalId
      plan.request.operationId).mapError fun source =>
        { code := .invalidRequest, message := .revision source }
  let nextWorkspace <-
    okOr workspace.generation.checkedSucc workspaceGenerationOverflow
  let nextResource <- nextResourceGeneration target.isTeam resource
  let db <- storeRestored plan target.namespaceId workspace.revisionId
    (revision.id self.ext) db
  let db :=
    if target.isTeam then db
    else db.setResourceMetadata plan.request.resourceId nextResource
      plan.content.metadata
  let db := db.setWorkspace plan.request.resourceId plan.authority.userId
    (revision.id self.ext) nextWorkspace plan.content
  let outcome : PrivateRevisionResponse :=
    { resourceId := plan.request.resourceId
      generation := nextWorkspace.value
      revisionId := revision.id self.ext
      description := plan.content.metadata.description
      manifest }
  let db <- recordRestore plan outcome db
  return (outcome,
    if target.isTeam then db
    else db.enqueueResourceWake plan.request.resourceId nextResource.value)

/-- The last transaction of a restore.  It does not look at conflicts. -/
def writeRestore (plan : PendingRestore) (db : Db) :
    Except ApiError (PrivateRevisionResponse × Db) := do
  let target <-
    db.authorizeResourcePublish plan.authority plan.request.resourceId
  let db :=
    if target.isTeam then
      db.ensurePrivateWorkspaceForUser plan.request.resourceId
        plan.authority.userId
    else db
  let (resource, workspace) <- db.currentWorkspace plan.request.resourceId
    plan.authority.userId "owned skill not found"
  ensure (resource.ownerNamespaceId == target.namespaceId)
    (ApiError.new .unauthorized "owned skill is unavailable")
  let expectedGeneration <- i64TryFrom plan.request.expectedGeneration
    (ApiError.new .invalidRequest "generation exceeds database range")
  ensure (workspace.generation.value == expectedGeneration)
    (ApiError.new .generationConflict
      ("private workspace advanced to generation " ++
        toString workspace.generation.value))
  ensure (workspace.revisionId != plan.request.targetRevisionId)
    (ApiError.new .invalidRequest
      "the requested revision is already the private workspace head")
  self.moveToRestored plan target resource workspace db

/-- A restore whose transactions follow each other. -/
def restoreSkill (store : ObjectStore) (userId : Uuid)
    (request : RestoreSkillRequest) (db : Db) :
    Except ApiError (PrivateRevisionResponse × Db) := do
  let read <- self.readRestore store userId request db
  match read with
  | .inl outcome => return (outcome, db)
  | .inr plan => self.writeRestore plan db

/-!
## What restoring writes
-/

variable {self} {db db' : Db} {plan : PendingRestore}

theorem reachRestoredBlobs_frame {resourceId namespaceId : Uuid}
    {revision : RevisionId} {blobs : Blobs}
    (h : blobs.foldlM
      (Db.reachRestoredBlob resourceId namespaceId revision) db = .ok db') :
    exists revisionBlobs resourceBlobs namespaceBlobs,
      db' = { db with revisionBlobs, resourceBlobs, namespaceBlobs } := by
  refine foldlM_invariant
    (P := fun other => exists revisionBlobs resourceBlobs namespaceBlobs,
      other = { db with revisionBlobs, resourceBlobs, namespaceBlobs })
    ?_ ⟨_, _, _, rfl⟩ h
  rintro s blob t ⟨a, b, c, rfl⟩ hstep
  rcases bind_eq_ok.mp hstep with ⟨reached, hreached, hstep⟩
  rcases bind_eq_ok.mp hreached with ⟨_, _, hreached⟩
  cases hreached
  cases hstep
  exact ⟨_, _, _, rfl⟩

theorem reachRestoredBlobs_eq {resourceId namespaceId : Uuid}
    {revision : RevisionId} {blobs : Blobs}
    (h : blobs.foldlM
      (Db.reachRestoredBlob resourceId namespaceId revision) db = .ok db') :
    exists revisionBlobs,
      db' = { db with
          revisionBlobs
          resourceBlobs := db.resourceBlobs.bumpAll (Db.references blobs)
            fun blob => (resourceId, blob)
          namespaceBlobs := db.namespaceBlobs.bumpAll (Db.references blobs)
            fun blob => (namespaceId, blob) } ∧
        forall row, row ∈ revisionBlobs <-> row ∈ db.revisionBlobs ∨
          row.revisionId = revision ∧ row.blobId ∈ blobs.map Prod.fst := by
  induction blobs generalizing db with
  | nil =>
      cases h
      exact ⟨_, rfl, by simp⟩
  | cons blob rest ih =>
      rw [List.foldlM_cons] at h
      rcases bind_eq_ok.mp h with ⟨middle, hfirst, hrest⟩
      rcases bind_eq_ok.mp hfirst with ⟨reached, hreached, hfirst⟩
      rcases bind_eq_ok.mp hreached with ⟨_, _, hreached⟩
      cases hreached
      cases hfirst
      rcases ih hrest with ⟨revisionBlobs, hdb', hrows⟩
      refine ⟨revisionBlobs, hdb', ?_⟩
      intro row
      rw [hrows row]
      rcases row with ⟨id, blobId⟩
      simp only [Db.bumpReference, List.map_cons, List.mem_cons,
        List.mem_append, RevisionBlobRow.mk.injEq, List.not_mem_nil,
        or_false]
      tauto

/-- A restore stores a new revision on top of the head, and counts the blobs
that it reaches once more. -/
structure RestoredStored (plan : PendingRestore) (namespaceId : Uuid)
    (parent revision : RevisionId) (blobs : Blobs) (db db' : Db) : Prop where
  manifest : manifestBlobs plan.content.snapshot.manifest = .ok blobs
  fresh : db.findRevision revision = none
  parents : db'.revisionParents = db.revisionParents ++
    [⟨revision, parent, 0⟩]
  revisions : Db.StoresRevision revision db.revisions db'.revisions
  canonical : db'.canonicalBlobs = db.canonicalBlobs
  resources : db'.resourceBlobs = db.resourceBlobs.bumpAll
    (Db.references blobs) fun blob => (plan.request.resourceId, blob)
  namespaces : db'.namespaceBlobs = db.namespaceBlobs.bumpAll
    (Db.references blobs) fun blob => (namespaceId, blob)
  revisionBlobs : forall row, row ∈ db'.revisionBlobs <->
    row ∈ db.revisionBlobs ∨
      row.revisionId = revision ∧ row.blobId ∈ blobs.map Prod.fst
  snapshots : db'.snapshots = db.snapshots ++
    [{ resourceId := plan.request.resourceId
       revisionId := revision
       snapshot := plan.content.snapshot }]

theorem storeRestored_stored {namespaceId : Uuid}
    {parent revision : RevisionId}
    (h : storeRestored plan namespaceId parent revision db = .ok db') :
    exists blobs,
      RestoredStored plan namespaceId parent revision blobs db db' := by
  rcases bind_eq_ok.mp h with ⟨db₁, hinsert, h⟩
  rcases bind_eq_ok.mp h with ⟨db₂, hparent, h⟩
  rcases bind_eq_ok.mp h with ⟨blobs, hblobs, h⟩
  rcases bind_eq_ok.mp h with ⟨db₃, hreach, h⟩
  rcases bind_eq_ok.mp hparent with ⟨_, _, hparent⟩
  rcases bind_eq_ok.mp h with ⟨_, _, h⟩
  rcases bind_eq_ok.mp h with ⟨_, _, h⟩
  cases h
  rcases Db.insertRevision_eq_ok hinsert with ⟨rfl, hnew⟩
  cases hparent
  rcases reachRestoredBlobs_eq hreach with ⟨revisionBlobs, rfl, hrows⟩
  have hrevisions := Db.storesRevision_append
    { revisionId := revision
      rootTreeId := plan.content.snapshot.manifest.rootTree
      authorPrincipalId := plan.authority.authorPrincipalId
      operationId := plan.request.operationId } db.revisions
  exact ⟨blobs, hblobs, hnew, rfl, hrevisions, rfl, rfl, rfl, hrows, rfl⟩

theorem storeRestored_frame {namespaceId : Uuid}
    {parent revision : RevisionId}
    (h : storeRestored plan namespaceId parent revision db = .ok db') :
    exists revisions revisionParents revisionBlobs resourceBlobs
        namespaceBlobs,
      db' = { db with
        revisions, revisionParents, revisionBlobs, resourceBlobs,
        namespaceBlobs,
        snapshots := db.snapshots ++
          [{ resourceId := plan.request.resourceId
             revisionId := revision
             snapshot := plan.content.snapshot }] } := by
  rcases bind_eq_ok.mp h with ⟨db₁, hrevision, h⟩
  rcases bind_eq_ok.mp h with ⟨db₂, hparent, h⟩
  rcases bind_eq_ok.mp h with ⟨blobs, _, h⟩
  rcases bind_eq_ok.mp h with ⟨db₃, hreach, h⟩
  rcases bind_eq_ok.mp hrevision with ⟨_, _, hrevision⟩
  rcases bind_eq_ok.mp hrevision with ⟨_, _, hrevision⟩
  rcases bind_eq_ok.mp hparent with ⟨_, _, hparent⟩
  rcases bind_eq_ok.mp h with ⟨_, _, h⟩
  rcases bind_eq_ok.mp h with ⟨_, _, h⟩
  rcases reachRestoredBlobs_frame hreach with ⟨a, b, c, hdb₃⟩
  cases h
  cases hrevision
  cases hparent
  rw [hdb₃]
  exact ⟨_, _, a, b, c, rfl⟩

/-- What a restore finds in its last transaction. -/
structure RestoreFound (plan : PendingRestore) (start : Db)
    (target : NamespacePublishAuthority) (resource : ResourceRow)
    (workspace : WorkspaceRow) : Prop where
  found : start.findResource plan.request.resourceId = some resource
  owned : resource.ownerNamespaceId = target.namespaceId
  current : start.workspace plan.request.resourceId plan.authority.userId =
    some workspace

/-- What a restore writes: a revision on top of the head, with the archive of
the restored one. -/
structure RestoreWritten (ext : Externals) (plan : PendingRestore)
    (target : NamespacePublishAuthority) (workspace : WorkspaceRow)
    (revision : Revision) (start db' : Db) : Prop where
  hashed : Revision.new plan.content.snapshot.manifest.rootTree
    [workspace.revisionId] plan.authority.authorPrincipalId
    plan.request.operationId = .ok revision
  tables : exists stored generation resourceGeneration operations events
      sequence,
    storeRestored plan target.namespaceId workspace.revisionId
        (revision.id ext) start = .ok stored ∧
      db' =
        { stored with
          resources :=
            if target.isTeam then stored.resources
            else (stored.setResourceMetadata plan.request.resourceId
              resourceGeneration plan.content.metadata).resources
          workspaces := (stored.setWorkspace plan.request.resourceId
            plan.authority.userId (revision.id ext) generation
            plan.content).workspaces
          restoreOperations := operations
          authorityEvents := events
          authorityEventSequence := sequence }

theorem moveToRestored_eq_ok {target : NamespacePublishAuthority}
    {resource : ResourceRow} {workspace : WorkspaceRow}
    {outcome : PrivateRevisionResponse}
    (h : self.moveToRestored plan target resource workspace db =
      .ok (outcome, db')) :
    exists revision,
      RestoreWritten self.ext plan target workspace revision db db' := by
  rcases bind_eq_ok.mp h with ⟨revision, hrevision, h⟩
  rcases bind_eq_ok.mp h with ⟨generation, _, h⟩
  rcases bind_eq_ok.mp h with ⟨resourceGeneration, _, h⟩
  rcases bind_eq_ok.mp h with ⟨stored, hstored, h⟩
  rcases bind_eq_ok.mp h with ⟨recorded, hrecorded, h⟩
  rcases bind_eq_ok.mp hrecorded with ⟨operations, _, hrecorded⟩
  cases hrecorded
  refine ⟨revision, mapError_eq_ok.mp hrevision, stored, generation,
    resourceGeneration, operations, ?_⟩
  cases hteam : target.isTeam with
  | false =>
      rw [hteam] at h
      cases h
      exact ⟨_, _, hstored, rfl⟩
  | true =>
      rw [hteam] at h
      cases h
      exact ⟨_, _, hstored, rfl⟩

theorem writeRestore_eq_ok {outcome : PrivateRevisionResponse}
    (h : self.writeRestore plan db = .ok (outcome, db')) :
    exists target start resource workspace revision,
      db.authorizeResourcePublish plan.authority plan.request.resourceId =
        .ok target ∧
      (start = db ∨ start = db.ensurePrivateWorkspaceForUser
        plan.request.resourceId plan.authority.userId) ∧
      RestoreFound plan start target resource workspace ∧
      RestoreWritten self.ext plan target workspace revision start db' := by
  rcases bind_eq_ok.mp h with ⟨target, htarget, h⟩
  rcases bind_eq_ok.mp h with ⟨⟨resource, workspace⟩, hcurrent, h⟩
  rcases bind_eq_ok.mp h with ⟨_, howner, h⟩
  rcases bind_eq_ok.mp h with ⟨_, _, h⟩
  rcases bind_eq_ok.mp h with ⟨_, _, h⟩
  rcases bind_eq_ok.mp h with ⟨_, _, h⟩
  rcases moveToRestored_eq_ok h with ⟨revision, hwritten⟩
  rcases Db.currentWorkspace_eq_ok hcurrent with
    ⟨hresource, _, _, hworkspace⟩
  refine ⟨target, _, resource, workspace, revision, htarget, ?_,
    ⟨hresource, beq_iff_eq.mp (ensure_eq_ok.mp howner), hworkspace⟩, hwritten⟩
  split
  · exact .inr rfl
  · exact .inl rfl

end Registry
end Denju
