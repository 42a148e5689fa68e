import Denju.Registry.Import
import Denju.Registry.Lifecycle

/-!
# Proposals

The owner of a fork proposes its head to the upstream skill.  Accepting a
proposal makes exactly that revision the head of the maintainer's workspace.
-/

namespace Denju

open Lib

/-- A proposal with the rows it refers to. -/
structure ProposalView where
  proposal : ProposalRow
  proposer : User
  proposerSlug : Text
  source : ResourceRow
  sourceOwner : Text
  sourceWorkspace : WorkspaceRow
  fork : ForkRow
  target : ResourceRow
  targetOwner : Namespace
  targetRevision : Option RevisionId
  targetRelease : Option RevisionId
  sharedWithProposer : Bool
  teamWithProposer : Bool

def proposalNotFound : ApiError :=
  ApiError.new .notFound "proposal not found"

namespace Db

/-- The head of the personal workspace of a target, where it can be read. -/
def targetWorkspaceRevision (db : Db) (user : Uuid) (target : ResourceRow) :
    Option RevisionId := do
  let owner <- db.directory.users.find? fun row =>
    row.namespaceId = target.ownerNamespaceId
  let workspace <- (db.workspace target.id owner.id).filter
    (db.canReadWorkspace user)
  return workspace.revisionId

def targetReleaseRevision (db : Db) (user : Uuid) (target : ResourceRow) :
    Option RevisionId := do
  let version <- target.latestReleaseVersion
  let release <- (db.findRelease target.id version).filter
    (db.releaseVisible user)
  return release.revisionId

def readableResource (db : Db) (user resourceId : Uuid) : Option ResourceRow :=
  (db.findResource resourceId).filter fun _ =>
    db.canReadResource user resourceId

def proposalQuery (db : Db) (user proposalId : Uuid) :
    Except ApiError ProposalView := do
  let proposal <- okOr
    (db.proposals.find? fun row =>
      decide (row.id = proposalId) &&
        (decide (row.proposerUserId = user) ||
          db.canManageResource user row.targetResourceId))
    proposalNotFound
  let proposer <- okOr
    (db.directory.users.find? fun row => row.id = proposal.proposerUserId)
    proposalNotFound
  let proposerSpace <- okOr (db.directory.namespaceById proposer.namespaceId)
    proposalNotFound
  let source <- okOr (db.readableResource user proposal.sourceResourceId)
    proposalNotFound
  let sourceOwner <- okOr (db.directory.namespaceById source.ownerNamespaceId)
    proposalNotFound
  let sourceWorkspace <- okOr
    ((db.workspace source.id proposal.proposerUserId).filter
      (db.canReadWorkspace user))
    proposalNotFound
  let fork <- okOr (db.fork source.id) proposalNotFound
  let target <- okOr (db.readableResource user proposal.targetResourceId)
    proposalNotFound
  let targetOwner <- okOr (db.directory.namespaceById target.ownerNamespaceId)
    proposalNotFound
  let release := db.targetReleaseRevision user target
  return {
    proposal
    proposer
    proposerSlug := proposerSpace.slug
    source
    sourceOwner := sourceOwner.slug
    sourceWorkspace
    fork
    target
    targetOwner
    targetRevision := (db.targetWorkspaceRevision user target).or release
    targetRelease := release
    sharedWithProposer := db.sharedWith target.id proposal.proposerUserId
    teamWithProposer := (db.directory.membership target.ownerNamespaceId
      proposal.proposerUserId).isSome }

end Db

namespace ProposalView

variable (view : ProposalView)

/-- The revision of the target that the proposer sees. -/
def visibleTarget : Option RevisionId :=
  if view.targetOwner.kind = .team then
    if view.sharedWithProposer || view.teamWithProposer then
      view.targetRelease.or (some view.fork.syncBaseRevisionId)
    else if view.target.visibility = .pub then view.targetRelease
    else none
  else if view.target.ownerNamespaceId = view.proposer.namespaceId ∨
      view.sharedWithProposer = true then view.targetRevision
  else if view.target.visibility = .pub then view.targetRelease
  else none

def state : SkillProposalState :=
  match view.proposal.state with
  | .opened =>
      if view.visibleTarget = some view.fork.syncBaseRevisionId then .opened
      else .needsSync
  | .accepted => .accepted
  | .rejected => .rejected
  | .withdrawn => .withdrawn

/-- What a proposal shows; a closed one shows what it was closed with. -/
def summary : Except ApiError SkillProposal := do
  let (revision, sourceGeneration) <-
    if view.proposal.state = .opened then
      pure (view.sourceWorkspace.revisionId, view.source.generation)
    else
      okOr (view.proposal.closed.map fun closed =>
        (closed.revisionId, closed.sourceGeneration))
        (ApiError.new .internal "closed proposal is missing its revision")
  return {
    proposalId := view.proposal.id
    generation := view.proposal.generation.value
    state := view.state
    proposer := view.proposerSlug
    sourceResourceId := view.source.id
    sourceLocator := locator view.sourceOwner view.source.slug
    sourceGeneration := sourceGeneration.value
    targetResourceId := view.target.id
    targetLocator := locator view.targetOwner.slug view.target.slug
    targetGeneration := view.target.generation.value
    proposedRevisionId := revision
    message := view.proposal.message }

end ProposalView

/-!
## Creating a proposal
-/

def ProposalState.text : ProposalState -> String
  | .opened => "open"
  | .accepted => "accepted"
  | .rejected => "rejected"
  | .withdrawn => "withdrawn"

namespace Db

/-- The stored answer of a proposal operation with the same action. -/
def replayProposalOperation (db : Db) (user : Uuid)
    (operationId : OperationId) (hash : RequestHash)
    (action : ProposalAction) : Except ApiError (Option SkillProposal) :=
  match findOperation db.proposalOperations user operationId with
  | none => .ok none
  | some row => do
      ensure (row.requestHash == hash && decide (row.outcome.1 = action))
        (ApiError.new .operationConflict
          "operation_id was already used with different proposal content")
      return some row.outcome.2

def recordProposalOperation (db : Db)
    (row : OperationRow (ProposalAction × SkillProposal)) :
    Except ApiError Db := do
  let rows <- recordOperation db.proposalOperations row
    "skill_proposal_operations_pkey"
  return { db with proposalOperations := rows }

/-- The fork that its owner proposes. -/
def proposalSource (db : Db) (authority : UserAuthority) (resourceId : Uuid) :
    Except ApiError (ResourceRow × ForkRow) := do
  let notFound := ApiError.new .notFound "owned fork not found"
  let resource <- okOr
    ((db.findResource resourceId).filter fun row =>
      decide (row.kind = .skill) && !row.deleted &&
        db.canManageResource authority.userId resourceId)
    notFound
  let _ <- okOr (db.workspace resourceId authority.userId) notFound
  let fork <- okOr (db.fork resourceId) notFound
  ensure (resource.ownerNamespaceId == authority.namespaceId &&
    !fork.promotionPending) notFound
  return (resource, fork)

def insertProposal (db : Db) (row : ProposalRow) : Except ApiError Db := do
  ensure (row.sourceResourceId != row.targetResourceId)
    (internalApiError "skill_proposals_check")
  ensure (!db.proposals.any fun other => other.id = row.id)
    (internalApiError "skill_proposals_pkey")
  return { db with proposals := db.proposals ++ [row] }

end Db

def validateMessage (message : Option Text) : Except ApiError Unit :=
  ensure (message.all fun message => message.length ≤ 500)
    (ApiError.new .invalidRequest "proposal message exceeds 500 characters")

def checkProposalHash (supplied : RequestHash)
    (expected : Except Text RequestHash) : Except ApiError Unit :=
  checkRequestHash supplied expected
    "request_hash does not match the canonical proposal payload"

namespace Registry

variable (self : Registry)

/-- Open a proposal of a fork. -/
def openProposal (proposalId : Uuid) (authority : UserAuthority)
    (request : ProposalCreateRequest) (db : Db) :
    Except ApiError (SkillProposal × Db) := do
  let (source, fork) <- db.proposalSource authority request.sourceResourceId
  let expectedGeneration <- i64TryFrom request.expectedSourceGeneration
    generationOutOfRange
  ensure (source.generation.value == expectedGeneration)
    (resourceAdvanced source.generation)
  let target <- okOr
    ((db.readableResource authority.userId fork.upstreamResourceId).filter
      fun row => decide (row.kind = .skill) && !row.deleted)
    (ApiError.new .notFound "upstream skill not found")
  ensure (source.slug == target.slug)
    (ApiError.new .invalidRequest
      "a proposal must preserve the upstream skill name; rename the fork to match upstream first")
  ensure (!db.proposals.any fun row =>
      row.sourceResourceId = request.sourceResourceId ∧
        row.targetResourceId = target.id ∧ row.state = .opened)
    (ApiError.new .invalidRequest "this fork already has an open proposal")
  let db <- db.insertProposal
    { id := proposalId
      proposerUserId := authority.userId
      sourceResourceId := request.sourceResourceId
      targetResourceId := target.id
      generation := .one
      state := .opened
      message := request.message
      closed := none }
  let view <- db.proposalQuery authority.userId proposalId
  let outcome <- view.summary
  let db <- db.recordProposalOperation
    { userId := authority.userId
      operationId := request.operationId
      requestHash := request.requestHash
      target := proposalId
      outcome := (.create, outcome) }
  return (outcome, db)

def createProposal (proposalId userId : Uuid)
    (request : ProposalCreateRequest) (db : Db) :
    Except ApiError (SkillProposal × Db) := do
  let authority <- db.directory.userAuthority userId
  validateMessage request.message
  checkProposalHash request.requestHash
    (self.hashes.proposalCreate request.toProposalCreateRequestHashInput)
  let replay <- db.replayProposalOperation authority.userId
    request.operationId request.requestHash .create
  match replay with
  | some outcome => return (outcome, db)
  | none => openProposal proposalId authority request db

end Registry

/-!
## Accepting a proposal
-/

namespace Db

/-- Reach one blob of an accepted revision; the blob must be stored. -/
def reachAcceptedBlob (session : Session) (resourceId namespaceId : Uuid)
    (db : Db) (blob : BlobId × Nat) : Except ApiError Db := do
  ensure (db.blobSize blob.1).isSome
    (internalApiError "resource_blob_reachability_blob_id_fkey")
  (db.addReference resourceId namespaceId blob.1).cancelBlobGc session blob.1

/-- The target retains the accepted revision. -/
def attachProposalRevision (db : Db) (limits : Limits) (user : Uuid)
    (sourceId targetId namespaceId : Uuid) (revision : RevisionId) :
    Except ApiError Db :=
  match (db.findSnapshot targetId revision).filter
      (db.snapshotVisible user) with
  | some _ => .ok db
  | none => do
      let source <- okOr
        ((db.findSnapshot sourceId revision).filter (db.snapshotVisible user))
        (ApiError.new .operationConflict "proposal revision is unavailable")
      let blobs <- manifestBlobs source.snapshot.manifest
      db.enforceNamespaceQuota limits namespaceId blobs
      let db <- blobs.foldlM
        (reachAcceptedBlob (.actor user) targetId namespaceId) db
      db.insertNewSnapshot
        { resourceId := targetId
          revisionId := revision
          snapshot := source.snapshot }

/-- Close a proposal as accepted. -/
def closeAccepted (db : Db) (proposalId : Uuid) (generation : Generation)
    (closed : ClosedProposal) : Db :=
  { db with
    proposals := updateWhere (fun row => row.id = proposalId)
      (fun row =>
        { row with
          generation
          state := .accepted
          closed := some closed })
      db.proposals }

end Db

namespace Registry

/-- The checks of an acceptance, and the workspace that it moves. -/
def checkAcceptance (authority : UserAuthority)
    (request : ProposalAcceptRequest) (view : ProposalView) (db : Db) :
    Except ApiError WorkspaceRow := do
  ensure (decide (view.proposal.state = .opened))
    (ApiError.new .operationConflict
      ("proposal is already " ++ view.proposal.state.text))
  let expectedGeneration <- i64TryFrom request.expectedGeneration
    generationOutOfRange
  ensure (view.proposal.generation.value == expectedGeneration)
    (resourceAdvanced view.proposal.generation)
  let sourceGeneration <- i64TryFrom request.expectedSourceGeneration
    generationOutOfRange
  ensure (view.source.generation.value == sourceGeneration &&
      view.sourceWorkspace.revisionId == request.expectedProposedRevisionId)
    (ApiError.new .generationConflict
      "proposal fork advanced; inspect the current proposal before accepting")
  let workspace <- okOr (db.workspace view.target.id authority.userId)
    (ApiError.new .notFound "target workspace not found")
  let targetGeneration <- i64TryFrom request.expectedTargetGeneration
    generationOutOfRange
  ensure (workspace.generation.value == targetGeneration)
    (resourceAdvanced workspace.generation)
  ensure (db.forks.any fun row =>
      row.resourceId = view.source.id ∧
        row.upstreamResourceId = view.target.id ∧
          row.promotionPending = false)
    (ApiError.new .operationConflict
      "proposal source is no longer the target's fork")
  ensure (!view.source.deleted && !view.target.deleted)
    (ApiError.new .operationConflict "proposal source or target is deleted")
  ensure (view.source.slug == view.target.slug)
    (ApiError.new .operationConflict
      "proposal fork name no longer matches upstream; rename the fork to match upstream before accepting")
  return workspace

/-- Make the proposed revision the head of the maintainer's workspace.  It
does not look at conflicts. -/
def moveToAccepted (registry : Registry) (authority : UserAuthority)
    (request : ProposalAcceptRequest) (isTeam : Bool) (view : ProposalView)
    (workspace : WorkspaceRow) (db : Db) :
    Except ApiError (SkillProposal × Db) := do
  let user := authority.userId
  let revision := request.expectedProposedRevisionId
  let db <- db.attachProposalRevision registry.limits user view.source.id
    view.target.id view.target.ownerNamespaceId revision
  let source <- okOr
    (db.workspace view.source.id view.proposal.proposerUserId)
    (internalApiError "no rows returned by a query that expected to return at least one row")
  let stored <- okOr
    ((db.findSnapshot view.target.id revision).filter
      (db.snapshotVisible user))
    (internalApiError "no rows returned by a query that expected to return at least one row")
  let nextWorkspace <- nextGeneration workspace.generation
  let nextResource <- nextResourceGeneration isTeam view.target
  let db :=
    if isTeam then db
    else db.setResourceMetadata view.target.id nextResource source.metadata
  let db := db.setWorkspace view.target.id user revision nextWorkspace
    { snapshot := stored.snapshot, metadata := source.metadata }
  let nextProposal <- nextGeneration view.proposal.generation
  let db := db.closeAccepted view.proposal.id nextProposal
    { revisionId := revision
      sourceGeneration := view.source.generation
      userId := user }
  let closed <- db.proposalQuery user view.proposal.id
  let outcome <- closed.summary
  let db <- db.recordProposalOperation
    { userId := user
      operationId := request.operationId
      requestHash := request.requestHash
      target := view.proposal.id
      outcome := (.accept, outcome) }
  return (outcome,
    if isTeam then db
    else db.enqueueResourceWake view.target.id nextResource.value)

/-- Accept an open proposal. -/
def acceptOpenProposal (registry : Registry) (authority : UserAuthority)
    (request : ProposalAcceptRequest) (db : Db) :
    Except ApiError (SkillProposal × Db) := do
  let view <- db.proposalQuery authority.userId request.proposalId
  let target <- db.authorizeResourcePublish authority view.target.id
  ensure (target.namespaceId == view.target.ownerNamespaceId)
    proposalNotFound
  let db :=
    if target.isTeam then
      db.ensurePrivateWorkspaceForUser view.target.id authority.userId
    else db
  let workspace <- checkAcceptance authority request view db
  moveToAccepted registry authority request target.isTeam view workspace db

variable (self : Registry)

def acceptProposal (userId : Uuid) (request : ProposalAcceptRequest)
    (db : Db) : Except ApiError (SkillProposal × Db) := do
  let authority <- db.directory.userAuthority userId
  checkProposalHash request.requestHash
    (self.hashes.proposalAccept request.toProposalAcceptRequestHashInput)
  let replay <- db.replayProposalOperation authority.userId
    request.operationId request.requestHash .accept
  match replay with
  | some outcome => return (outcome, db)
  | none => acceptOpenProposal self authority request db

/-!
## What proposals write
-/

variable {self} {db db' : Db}

theorem createProposal_eq_ok {proposalId userId : Uuid}
    {request : ProposalCreateRequest} {outcome : SkillProposal}
    (h : self.createProposal proposalId userId request db =
      .ok (outcome, db')) :
    db' = db ∨ exists row proposalOperations,
      db' = { db with
        proposals := db.proposals ++ [row]
        proposalOperations } ∧
      row.state = .opened ∧ row.closed = none := by
  rcases bind_eq_ok.mp h with ⟨authority, _, h⟩
  rcases bind_eq_ok.mp h with ⟨_, _, h⟩
  rcases bind_eq_ok.mp h with ⟨_, _, h⟩
  rcases bind_eq_ok.mp h with ⟨replay, _, h⟩
  split at h
  · cases h
    exact .inl rfl
  · rcases bind_eq_ok.mp h with ⟨⟨source, fork⟩, _, h⟩
    rcases bind_eq_ok.mp h with ⟨_, _, h⟩
    rcases bind_eq_ok.mp h with ⟨_, _, h⟩
    rcases bind_eq_ok.mp h with ⟨target, _, h⟩
    rcases bind_eq_ok.mp h with ⟨_, _, h⟩
    rcases bind_eq_ok.mp h with ⟨_, _, h⟩
    rcases bind_eq_ok.mp h with ⟨inserted, hinserted, h⟩
    rcases bind_eq_ok.mp h with ⟨view, _, h⟩
    rcases bind_eq_ok.mp h with ⟨shown, _, h⟩
    rcases bind_eq_ok.mp h with ⟨recorded, hrecorded, h⟩
    rcases bind_eq_ok.mp hinserted with ⟨_, _, hinserted⟩
    rcases bind_eq_ok.mp hinserted with ⟨_, _, hinserted⟩
    rcases bind_eq_ok.mp hrecorded with ⟨operations, _, hrecorded⟩
    cases hinserted
    cases hrecorded
    cases h
    exact .inr ⟨_, operations, rfl, rfl, rfl⟩

theorem attachProposalRevision_frame {limits : Limits} {user sourceId targetId
    namespaceId : Uuid} {revision : RevisionId}
    (h : db.attachProposalRevision limits user sourceId targetId namespaceId
      revision = .ok db') :
    exists resourceBlobs namespaceBlobs canonicalBlobGc snapshots,
      db' = { db with
        resourceBlobs, namespaceBlobs, canonicalBlobGc, snapshots } := by
  unfold Db.attachProposalRevision at h
  split at h
  · cases h
    exact ⟨_, _, _, _, rfl⟩
  · rcases bind_eq_ok.mp h with ⟨source, _, h⟩
    rcases bind_eq_ok.mp h with ⟨blobs, _, h⟩
    rcases bind_eq_ok.mp h with ⟨_, _, h⟩
    rcases bind_eq_ok.mp h with ⟨reached, hreached, h⟩
    rcases bind_eq_ok.mp h with ⟨_, _, h⟩
    rcases bind_eq_ok.mp h with ⟨_, _, h⟩
    have hframe : exists resourceBlobs namespaceBlobs canonicalBlobGc,
        reached = { db with
          resourceBlobs, namespaceBlobs, canonicalBlobGc } := by
      refine foldlM_invariant
        (P := fun other => exists resourceBlobs namespaceBlobs canonicalBlobGc,
          other = { db with
            resourceBlobs, namespaceBlobs, canonicalBlobGc })
        ?_ ⟨_, _, _, rfl⟩ hreached
      rintro s blob t ⟨a, b, c, rfl⟩ hstep
      rcases bind_eq_ok.mp hstep with ⟨_, _, hstep⟩
      cases hstep
      exact ⟨_, _, _, rfl⟩
    rcases hframe with ⟨a, b, c, hreached⟩
    cases h
    rw [hreached]
    exact ⟨_, _, _, _, rfl⟩

theorem reachAcceptedBlobs_eq {user resourceId namespaceId : Uuid}
    {blobs : Blobs}
    (h : blobs.foldlM
      (Db.reachAcceptedBlob (.actor user) resourceId namespaceId) db =
        .ok db') :
    exists canonicalBlobGc,
      db' = { db with
          canonicalBlobGc
          resourceBlobs := db.resourceBlobs.addAll (Db.references blobs)
            fun blob => (resourceId, blob)
          namespaceBlobs := db.namespaceBlobs.addAll (Db.references blobs)
            fun blob => (namespaceId, blob) } ∧
        forall blob, blob ∈ blobs -> (db.blobSize blob.1).isSome := by
  induction blobs generalizing db with
  | nil =>
      cases h
      exact ⟨_, rfl, by simp⟩
  | cons blob rest ih =>
      rw [List.foldlM_cons] at h
      rcases bind_eq_ok.mp h with ⟨middle, hfirst, hrest⟩
      rcases bind_eq_ok.mp hfirst with ⟨_, hstored, hfirst⟩
      cases hfirst
      rcases ih hrest with ⟨marked, hdb', hblobs⟩
      refine ⟨marked, hdb', ?_⟩
      intro other hother
      rcases List.mem_cons.mp hother with rfl | hlater
      · exact ensure_eq_ok.mp hstored
      · exact hblobs other hlater

/-- The target retains a revision anew, with the blobs of its archive. -/
structure Attached (sourceId targetId namespaceId : Uuid)
    (revision : RevisionId) (source : SnapshotRow) (blobs : Blobs)
    (db db' : Db) : Prop where
  found : db.findSnapshot sourceId revision = some source
  fresh : db.findSnapshot targetId revision = none
  manifest : manifestBlobs source.snapshot.manifest = .ok blobs
  canonical : forall blob, blob ∈ blobs -> (db.blobSize blob.1).isSome
  tables : exists canonicalBlobGc,
    db' = { db with
      canonicalBlobGc
      resourceBlobs := db.resourceBlobs.addAll (Db.references blobs)
        fun blob => (targetId, blob)
      namespaceBlobs := db.namespaceBlobs.addAll (Db.references blobs)
        fun blob => (namespaceId, blob)
      snapshots := db.snapshots ++
        [{ resourceId := targetId
           revisionId := revision
           snapshot := source.snapshot }] }

theorem attachProposalRevision_eq_ok {limits : Limits} {user sourceId targetId
    namespaceId : Uuid} {revision : RevisionId}
    (h : db.attachProposalRevision limits user sourceId targetId namespaceId
      revision = .ok db') :
    (db' = db ∧ (db.findSnapshot targetId revision).isSome) ∨
      exists source blobs,
        Attached sourceId targetId namespaceId revision source blobs db db' := by
  unfold Db.attachProposalRevision at h
  split at h
  · rename_i row hrow
    cases h
    have hfound := (Option.filter_eq_some_iff.mp hrow).1
    exact .inl ⟨rfl, by simp [hfound]⟩
  · rcases bind_eq_ok.mp h with ⟨source, hsource, h⟩
    rcases bind_eq_ok.mp h with ⟨blobs, hblobs, h⟩
    rcases bind_eq_ok.mp h with ⟨_, _, h⟩
    rcases bind_eq_ok.mp h with ⟨reached, hreached, h⟩
    rcases bind_eq_ok.mp h with ⟨_, _, h⟩
    rcases bind_eq_ok.mp h with ⟨_, hfresh, h⟩
    rcases reachAcceptedBlobs_eq hreached with ⟨marked, rfl, hstored⟩
    cases h
    have hfound :=
      (Option.filter_eq_some_iff.mp (okOr_eq_ok.mp hsource)).1
    refine .inr ⟨source, blobs, hfound, ?_, hblobs, hstored, marked, rfl⟩
    exact Option.isNone_iff_eq_none.mp (ensure_eq_ok.mp hfresh)

/-- What an acceptance writes. -/
structure AcceptWritten (registry : Registry) (authority : UserAuthority)
    (request : ProposalAcceptRequest) (isTeam : Bool) (view : ProposalView)
    (start db' : Db) : Prop where
  tables : exists attached generation resourceGeneration proposalGeneration
      content operations events sequence,
    start.attachProposalRevision registry.limits authority.userId
        view.source.id view.target.id view.target.ownerNamespaceId
        request.expectedProposedRevisionId = .ok attached ∧
      db' =
        { attached with
          resources :=
            if isTeam then attached.resources
            else (attached.setResourceMetadata view.target.id
              resourceGeneration content.metadata).resources
          workspaces := (attached.setWorkspace view.target.id
            authority.userId request.expectedProposedRevisionId generation
            content).workspaces
          proposals := (attached.closeAccepted view.proposal.id
            proposalGeneration
            { revisionId := request.expectedProposedRevisionId
              sourceGeneration := view.source.generation
              userId := authority.userId }).proposals
          proposalOperations := operations
          authorityEvents := events
          authorityEventSequence := sequence }

theorem moveToAccepted_eq_ok {authority : UserAuthority}
    {request : ProposalAcceptRequest} {isTeam : Bool} {view : ProposalView}
    {workspace : WorkspaceRow} {outcome : SkillProposal}
    (h : moveToAccepted self authority request isTeam view workspace db =
      .ok (outcome, db')) :
    AcceptWritten self authority request isTeam view db db' := by
  rcases bind_eq_ok.mp h with ⟨attached, hattached, h⟩
  rcases bind_eq_ok.mp h with ⟨source, _, h⟩
  rcases bind_eq_ok.mp h with ⟨stored, _, h⟩
  rcases bind_eq_ok.mp h with ⟨generation, _, h⟩
  rcases bind_eq_ok.mp h with ⟨resourceGeneration, _, h⟩
  rcases bind_eq_ok.mp h with ⟨proposalGeneration, _, h⟩
  rcases bind_eq_ok.mp h with ⟨closed, _, h⟩
  rcases bind_eq_ok.mp h with ⟨shown, _, h⟩
  rcases bind_eq_ok.mp h with ⟨recorded, hrecorded, h⟩
  rcases bind_eq_ok.mp hrecorded with ⟨operations, _, hrecorded⟩
  cases hrecorded
  refine ⟨attached, generation, resourceGeneration, proposalGeneration,
    { snapshot := stored.snapshot, metadata := source.metadata }, operations,
    ?_⟩
  cases isTeam with
  | false =>
      cases h
      exact ⟨_, _, hattached, rfl⟩
  | true =>
      cases h
      exact ⟨_, _, hattached, rfl⟩

theorem acceptProposal_eq_ok {userId : Uuid}
    {request : ProposalAcceptRequest} {outcome : SkillProposal}
    (h : self.acceptProposal userId request db = .ok (outcome, db')) :
    db' = db ∨ exists authority view target start workspace,
      db.directory.userAuthority userId = .ok authority ∧
      db.proposalQuery authority.userId request.proposalId = .ok view ∧
      db.authorizeResourcePublish authority view.target.id = .ok target ∧
      target.namespaceId = view.target.ownerNamespaceId ∧
      (start = db ∨ start = db.ensurePrivateWorkspaceForUser view.target.id
        authority.userId) ∧
      checkAcceptance authority request view start = .ok workspace ∧
      AcceptWritten self authority request target.isTeam view start db' := by
  rcases bind_eq_ok.mp h with ⟨authority, hauthority, h⟩
  rcases bind_eq_ok.mp h with ⟨_, _, h⟩
  rcases bind_eq_ok.mp h with ⟨replay, _, h⟩
  split at h
  · cases h
    exact .inl rfl
  · rcases bind_eq_ok.mp h with ⟨view, hview, h⟩
    rcases bind_eq_ok.mp h with ⟨target, htarget, h⟩
    rcases bind_eq_ok.mp h with ⟨_, hspace, h⟩
    rcases bind_eq_ok.mp h with ⟨workspace, hchecked, h⟩
    refine .inr ⟨authority, view, target, _, workspace, hauthority, hview,
      htarget, beq_iff_eq.mp (ensure_eq_ok.mp hspace), ?_, hchecked,
      moveToAccepted_eq_ok h⟩
    split
    · exact .inr rfl
    · exact .inl rfl

/-- The rows of a proposal that a query returns. -/
theorem proposalQuery_eq_ok {user proposalId : Uuid} {view : ProposalView}
    (h : db.proposalQuery user proposalId = .ok view) :
    view.proposal ∈ db.proposals ∧ view.proposal.id = proposalId ∧
      view.target.id = view.proposal.targetResourceId ∧
        view.source.id = view.proposal.sourceResourceId ∧
          db.findResource view.target.id = some view.target ∧
            db.findResource view.source.id = some view.source := by
  rcases bind_eq_ok.mp h with ⟨proposal, hproposal, h⟩
  rcases bind_eq_ok.mp h with ⟨proposer, _, h⟩
  rcases bind_eq_ok.mp h with ⟨_, _, h⟩
  rcases bind_eq_ok.mp h with ⟨source, hsource, h⟩
  rcases bind_eq_ok.mp h with ⟨_, _, h⟩
  rcases bind_eq_ok.mp h with ⟨_, _, h⟩
  rcases bind_eq_ok.mp h with ⟨_, _, h⟩
  rcases bind_eq_ok.mp h with ⟨target, htarget, h⟩
  rcases bind_eq_ok.mp h with ⟨_, _, h⟩
  cases h
  have hfound := okOr_eq_ok.mp hproposal
  have hid := List.find?_some hfound
  simp only [Bool.and_eq_true, decide_eq_true_eq] at hid
  have hsourceRow := (Option.filter_eq_some_iff.mp (okOr_eq_ok.mp hsource)).1
  have htargetRow := (Option.filter_eq_some_iff.mp (okOr_eq_ok.mp htarget)).1
  have hsourceId := (Db.mem_of_findResource_eq_some hsourceRow).2
  have htargetId := (Db.mem_of_findResource_eq_some htargetRow).2
  refine ⟨List.mem_of_find?_eq_some hfound, hid.1, htargetId, hsourceId, ?_,
    ?_⟩
  · dsimp only
    rw [htargetId]
    exact htargetRow
  · dsimp only
    rw [hsourceId]
    exact hsourceRow

end Registry
end Denju
