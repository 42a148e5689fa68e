import Denju.Core.Snapshot
import Denju.Lib.Table
import Denju.Lib.RefCount
import Denju.Lib.Ancestry

/-!
# The registry database

The rows of the registry's tables and the errors of its interface.  A table is
the list of its rows.  Rows that another table only extends, such as the parents
and the staged objects of an operation, are fields of the row they belong to.
-/

namespace Denju

open Lib

abbrev Uuid := Vector UInt8 16

instance instLawfulBEqUuid : LawfulBEq Uuid :=
  inferInstance

abbrev RequestHash := Digest

def OperationId.asUuid (id : OperationId) : Uuid :=
  id.uuid.bytes

theorem OperationId.asUuid_injective {a b : OperationId}
    (h : a.asUuid = b.asUuid) : a = b := by
  cases a with
  | mk a =>
      cases b with
      | mk b =>
          cases a
          cases b
          simpa [OperationId.asUuid] using h

/-!
## Errors

The text of an error from a core function is represented by that error.
-/

inductive ApiErrorCode where
  | invalidRequest
  | invalidRequestHash
  | operationConflict
  | generationConflict
  | unauthorized
  | notFound
  | quotaExceeded
  | internal
  | unavailable
deriving DecidableEq, Repr

inductive ApiMessage where
  | text (message : String)
  | skill (source : SkillValidationError)
  | snapshot (source : SnapshotError)
  | revision (source : RevisionError)
  | requestHash (source : Text)
  | objectStore (source : Text)
  | database (constraint : String)
deriving DecidableEq, Repr

structure ApiError where
  code : ApiErrorCode
  message : ApiMessage
deriving DecidableEq, Repr

def ApiError.new (code : ApiErrorCode) (message : String) : ApiError :=
  { code, message := .text message }

/-- A constraint of the database refuses a statement. -/
def internalApiError (constraint : String) : ApiError :=
  { code := .internal, message := .database constraint }

def objectStoreApiError (source : Text) : ApiError :=
  { code := .unavailable, message := .objectStore source }

/-!
## Generations

A generation is a positive 64-bit column.
-/

structure Generation where
  value : Nat
  positive : 0 < value
  bounded : value < 2 ^ 63
deriving DecidableEq

theorem Generation.eq_of_value_eq {a b : Generation}
    (h : a.value = b.value) : a = b := by
  cases a
  cases b
  simpa using h

namespace Generation

def one : Generation where
  value := 1
  positive := by decide
  bounded := by decide

def checkedSucc (generation : Generation) : Option Generation :=
  if h : generation.value + 1 < 2 ^ 63 then
    some ⟨generation.value + 1, Nat.succ_pos _, h⟩
  else
    none

theorem checkedSucc_eq_some {a b : Generation}
    (h : a.checkedSucc = some b) : b.value = a.value + 1 := by
  unfold checkedSucc at h
  split at h
  · cases h
    rfl
  · cases h

end Generation

/-- The signed 64-bit range of a requested generation. -/
def i64TryFrom (value : UInt64) (error : ApiError) : Except ApiError Nat :=
  if value.toNat < 2 ^ 63 then .ok value.toNat else .error error

@[simp] theorem i64TryFrom_eq_ok {value : UInt64} {error : ApiError} {n : Nat} :
    i64TryFrom value error = .ok n <->
      value.toNat < 2 ^ 63 ∧ value.toNat = n := by
  unfold i64TryFrom
  split
  · simp_all
  · simp_all

/-!
## Namespaces, users and teams

The keys and unique columns of these tables are the fields of the directory.
Of the operations of this development only the end of a membership changes it.
-/

inductive NamespaceKind where
  | user
  | team
deriving DecidableEq, Repr

inductive TeamRole where
  | owner
  | maintainer
  | member
deriving DecidableEq, Repr

structure Namespace where
  id : Uuid
  slug : Text
  kind : NamespaceKind
deriving DecidableEq

structure User where
  id : Uuid
  namespaceId : Uuid
  authorPrincipalId : AuthorPrincipalId
deriving DecidableEq

structure Team where
  namespaceId : Uuid
  membersCanPublish : Bool
deriving DecidableEq

structure TeamMembership where
  teamNamespaceId : Uuid
  userId : Uuid
  role : TeamRole
deriving DecidableEq

structure AuthorLink where
  authorPrincipalId : AuthorPrincipalId
  userId : Uuid
deriving DecidableEq

/-- A device, and the user who has claimed it. -/
structure Installation where
  id : Uuid
  userId : Option Uuid
deriving DecidableEq

structure Directory where
  namespaces : List Namespace
  users : List User
  teams : List Team
  memberships : List TeamMembership
  authorLinks : List AuthorLink
  installations : List Installation := []
  operators : List Uuid := []
  namespaceKey : (namespaces.map Namespace.id).Nodup
  slugUnique : (namespaces.map Namespace.slug).Nodup
  userKey : (users.map User.id).Nodup
  userNamespaceUnique : (users.map User.namespaceId).Nodup
  teamKey : (teams.map Team.namespaceId).Nodup
  membershipKey : (memberships.map fun row =>
    (row.teamNamespaceId, row.userId)).Nodup
  authorKey : (authorLinks.map AuthorLink.authorPrincipalId).Nodup
  usersLinked : forall user, user ∈ users ->
    (⟨user.authorPrincipalId, user.id⟩ : AuthorLink) ∈ authorLinks
  usersPersonal : forall user, user ∈ users ->
    exists row, row ∈ namespaces ∧ row.id = user.namespaceId ∧
      row.kind = .user
  teamsTeam : forall team, team ∈ teams ->
    exists row, row ∈ namespaces ∧ row.id = team.namespaceId ∧
      row.kind = .team

/-!
## Resources, workspaces and history
-/

inductive ResourceKind where
  | skill
  | pack
deriving DecidableEq, Repr

inductive Visibility where
  | pub
  | priv
deriving DecidableEq, Repr

/-- What discovery shows of a skill document. -/
structure SkillMetadata where
  description : Text
  license : Option Text
  compatibility : Option Text
deriving DecidableEq

/-- A stored archive and the manifest that it holds. -/
structure StoredSnapshot where
  manifest : SkillManifest
  snapshotKey : Text
  snapshotSha256 : BlobId
  snapshotSize : Nat
deriving DecidableEq

structure ResourceRow where
  id : Uuid
  ownerNamespaceId : Uuid
  slug : Text
  kind : ResourceKind
  visibility : Visibility
  metadata : SkillMetadata
  generation : Generation
  latestReleaseVersion : Option Generation
  deprecated : Bool
  deprecationReplacement : Option Uuid
  deleted : Bool
  tombstoneReleaseVersion : Option Generation := none
  deletedOwnerSlug : Option Text := none
deriving DecidableEq

structure WorkspaceRow where
  resourceId : Uuid
  workspaceUserId : Uuid
  metadata : SkillMetadata
  revisionId : RevisionId
  generation : Generation
  snapshot : StoredSnapshot
deriving DecidableEq

structure SnapshotRow where
  resourceId : Uuid
  revisionId : RevisionId
  snapshot : StoredSnapshot
deriving DecidableEq

structure ReleaseRow where
  resourceId : Uuid
  version : Generation
  revisionId : RevisionId
  rootTreeId : TreeId
  snapshot : StoredSnapshot
  authorPrincipalId : AuthorPrincipalId
  message : Option Text
  tags : List Text
deriving DecidableEq

structure RevisionRow where
  revisionId : RevisionId
  rootTreeId : TreeId
  authorPrincipalId : AuthorPrincipalId
  operationId : OperationId
deriving DecidableEq

structure RevisionParentRow where
  revisionId : RevisionId
  parentRevisionId : RevisionId
  ordinal : Nat
deriving DecidableEq

structure TreeEntryRow where
  treeId : TreeId
  name : Text
  kind : TreeEntryKind
deriving DecidableEq

structure CanonicalBlobRow where
  blobId : BlobId
  sizeBytes : Nat
  objectKey : Text
deriving DecidableEq

structure RevisionBlobRow where
  revisionId : RevisionId
  blobId : BlobId
deriving DecidableEq

structure RedirectRow where
  namespaceId : Uuid
  kind : ResourceKind
  oldSlug : Text
  targetResourceId : Uuid
deriving DecidableEq

structure ForkRow where
  resourceId : Uuid
  upstreamResourceId : Uuid
  createdFromRevisionId : RevisionId
  syncBaseRevisionId : RevisionId
  promotionHeadRevisionId : Option RevisionId
  promotionPending : Bool
deriving DecidableEq

structure QuarantineRow where
  id : Uuid
  reason : Text
  resourceId : Uuid
  releaseVersion : Option Generation
  lifted : Bool
deriving DecidableEq

/-- A personal skill shared with another user. -/
structure ShareRow where
  resourceId : Uuid
  userId : Uuid
deriving DecidableEq

structure SubscriptionRow where
  resourceId : Uuid
  userId : Uuid
  retainOnDelete : Bool
  pinnedReleaseVersion : Option Generation := none
deriving DecidableEq

structure InstallationSubscriptionRow where
  installationId : Uuid
  resourceId : Uuid
  retainOnDelete : Bool
  pinnedReleaseVersion : Option Generation := none
deriving DecidableEq

/-- A pack that a team requires of its members. -/
structure TeamPackAssignmentRow where
  teamNamespaceId : Uuid
  packResourceId : Uuid
deriving DecidableEq

/-!
## Private saves
-/

structure StagingRow where
  blobId : BlobId
  sizeBytes : Nat
  stagingKey : Text
deriving DecidableEq

inductive PrivateRevisionOperationState where
  | prepared
  | advanced
  | diverged
deriving DecidableEq, Repr

structure PrivateRevisionResponse where
  resourceId : Uuid
  generation : Nat
  revisionId : RevisionId
  description : Text
  manifest : SkillManifest
deriving DecidableEq

structure PrivateWorkspaceConflict where
  conflictId : Uuid
  resourceId : Uuid
  baseRevisionId : RevisionId
  headRevisionIds : List RevisionId
  activeRevisionId : RevisionId
  generation : Nat
  resolutionRevisionId : Option RevisionId
deriving DecidableEq

inductive PrivateRevisionCommitResponse where
  | advanced (revision : PrivateRevisionResponse)
  | diverged (resourceId : Uuid) (revisionId : RevisionId)
      (conflict : PrivateWorkspaceConflict)
deriving DecidableEq

structure ValidatedForkSync where
  expectedBase : RevisionId
  upstreamRevision : RevisionId
deriving DecidableEq

structure RevisionOperationRow where
  userId : Uuid
  operationId : OperationId
  requestHash : RequestHash
  namespaceId : Uuid
  resourceId : Uuid
  expectedGeneration : Generation
  expectedHeadRevisionId : RevisionId
  revisionId : RevisionId
  rootTreeId : TreeId
  manifest : SkillManifest
  revisionAuthorPrincipalId : Option AuthorPrincipalId
  forkSync : Option ValidatedForkSync
  historicalSkillName : Option Text
  state : PrivateRevisionOperationState
  outcome : Option PrivateRevisionCommitResponse
  parents : List RevisionId
  staging : List StagingRow
deriving DecidableEq

structure WorkspaceConflictRow where
  conflictId : Uuid
  resourceId : Uuid
  workspaceUserId : Uuid
  baseRevisionId : RevisionId
  headARevisionId : RevisionId
  headBRevisionId : RevisionId
  activeRevisionId : RevisionId
  detectedGeneration : Generation
  resolutionRevisionId : Option RevisionId
deriving DecidableEq

/-!
## Imports
-/

structure ValidatedFork where
  upstreamResourceId : Uuid
  upstreamRevisionId : RevisionId
  replaceSubscription : Bool
  promotionHeadRevisionId : Option RevisionId
  historicalSkillName : Option Text
deriving DecidableEq

structure SkillForkProvenance where
  upstreamResourceId : Uuid
  upstreamLocator : Text
  createdFromRevisionId : RevisionId
  syncBaseRevisionId : RevisionId
deriving DecidableEq

structure PrivateSkillImportResponse where
  resourceId : Uuid
  locator : Text
  owner : Text
  name : Text
  description : Text
  generation : Nat
  revisionId : RevisionId
  manifest : SkillManifest
  fork : Option SkillForkProvenance
deriving DecidableEq

inductive ImportOperationState where
  | prepared
  | committed
deriving DecidableEq, Repr

structure ImportOperationRow where
  userId : Uuid
  operationId : OperationId
  requestHash : RequestHash
  namespaceId : Uuid
  resourceId : Uuid
  slug : Text
  expectedGeneration : Nat
  revisionId : RevisionId
  rootTreeId : TreeId
  manifest : SkillManifest
  snapshotSha256 : BlobId
  snapshotSize : Nat
  revisionAuthorPrincipalId : Option AuthorPrincipalId
  fork : Option ValidatedFork
  state : ImportOperationState
  outcome : Option PrivateSkillImportResponse
  staging : List StagingRow
deriving DecidableEq

/-!
## Releases, lifecycle and proposals
-/

structure SkillDeprecation where
  replacementResourceId : Option Uuid
  replacementLocator : Option Text
deriving DecidableEq

structure PublicSkill where
  resourceId : Uuid
  locator : Text
  owner : Text
  name : Text
  description : Text
  generation : Nat
  version : Option Nat
  livePrivate : Bool
  revisionId : RevisionId
  deprecation : Option SkillDeprecation
deriving DecidableEq

structure SkillRelease where
  version : Nat
  revisionId : RevisionId
  message : Option Text
  tags : List Text
deriving DecidableEq

structure PublishSkillResponse where
  skill : PublicSkill
  release : SkillRelease
deriving DecidableEq

structure RenameSkillResponse where
  resourceId : Uuid
  oldLocator : Text
  locator : Text
  generation : Nat
  revisionId : RevisionId
  releaseVersion : Option Nat
deriving DecidableEq

structure UnpublishSkillResponse where
  resourceId : Uuid
  locator : Text
  generation : Nat
deriving DecidableEq

structure HistoryPruneResponse where
  resourceId : Uuid
  locator : Text
  generation : Nat
  prunedRevisions : Nat
  reclaimedBytes : Nat
  gcCandidates : Nat
deriving DecidableEq

structure DeleteSkillResponse where
  resourceId : Uuid
  locator : Text
  generation : Nat
  finalReleaseVersion : Option Nat
deriving DecidableEq

structure DeprecateSkillResponse where
  resourceId : Uuid
  locator : Text
  generation : Nat
  deprecated : Bool
  replacement : Option Text
deriving DecidableEq

/-- The kind of a lifecycle operation is the kind of its outcome. -/
inductive LifecycleOutcome where
  | rename (outcome : RenameSkillResponse)
  | unpublish (outcome : UnpublishSkillResponse)
  | historyPrune (outcome : HistoryPruneResponse)
  | delete (outcome : DeleteSkillResponse)
  | deprecate (outcome : DeprecateSkillResponse)
deriving DecidableEq

structure ShareSkillResponse where
  resourceId : Uuid
  locator : Text
  recipient : Text
  shared : Bool
  subscribeCommand : Option Text
deriving DecidableEq

structure AdminQuarantineResponse where
  quarantineId : Option Uuid
  resourceId : Uuid
  locator : Text
  releaseVersion : Option Nat
  quarantined : Bool
  generation : Nat
deriving DecidableEq

/-- The kind of an operator's operation is the kind of its outcome. -/
inductive AdminOutcome where
  | quarantine (outcome : AdminQuarantineResponse)
  | unquarantine (outcome : AdminQuarantineResponse)
deriving DecidableEq

structure ResourceTransferResponse where
  resourceId : Uuid
  oldLocator : Text
  newLocator : Text
  generation : Nat
deriving DecidableEq

inductive ProposalState where
  | opened
  | accepted
  | rejected
  | withdrawn
deriving DecidableEq, Repr

inductive SkillProposalState where
  | opened
  | needsSync
  | accepted
  | rejected
  | withdrawn
deriving DecidableEq, Repr

structure ClosedProposal where
  revisionId : RevisionId
  sourceGeneration : Generation
  userId : Uuid
deriving DecidableEq

structure ProposalRow where
  id : Uuid
  proposerUserId : Uuid
  sourceResourceId : Uuid
  targetResourceId : Uuid
  generation : Generation
  state : ProposalState
  message : Option Text
  closed : Option ClosedProposal
deriving DecidableEq

structure SkillProposal where
  proposalId : Uuid
  generation : Nat
  state : SkillProposalState
  proposer : Text
  sourceResourceId : Uuid
  sourceLocator : Text
  sourceGeneration : Nat
  targetResourceId : Uuid
  targetLocator : Text
  targetGeneration : Nat
  proposedRevisionId : RevisionId
  message : Option Text
deriving DecidableEq

inductive ProposalAction where
  | create
  | accept
deriving DecidableEq, Repr

/-- A recorded request of a user, its target and its stored answer. -/
structure OperationRow (β : Type) where
  userId : Uuid
  operationId : OperationId
  requestHash : RequestHash
  target : Uuid
  outcome : β
deriving DecidableEq

/-!
## Authority events

An event of a published release also names the release.
-/

structure ReleaseEvent where
  releaseVersion : Nat
  revisionId : RevisionId
deriving DecidableEq

structure AuthorityEventRow where
  id : Nat
  resourceId : Uuid
  resourceGeneration : Nat
  release : Option ReleaseEvent
deriving DecidableEq

/-!
## Packs

The members of a pack are what its authors intend; the members of a version are
what was resolved for it.
-/

structure PackStateRow where
  resourceId : Uuid
  currentVersion : Generation
deriving DecidableEq

structure PackMemberRow where
  packResourceId : Uuid
  skillResourceId : Uuid
  pinnedReleaseVersion : Option Generation
  followAfterEventId : Nat
deriving DecidableEq

structure PackRevisionRow where
  packResourceId : Uuid
  version : Generation
  sourceReleaseEventId : Option Nat
deriving DecidableEq

structure PackRevisionMemberRow where
  packResourceId : Uuid
  packVersion : Generation
  ordinal : Nat
  skillResourceId : Uuid
  pinnedReleaseVersion : Option Generation
  resolvedReleaseVersion : Option Generation
  resolvedRevisionId : RevisionId
deriving DecidableEq

structure PackSummary where
  resourceId : Uuid
  locator : Text
  generation : Nat
  version : Nat
  visibility : Visibility
  memberCount : Nat
  degraded : Bool
deriving DecidableEq

structure PackMutationResponse where
  pack : PackSummary
  changed : Bool
deriving DecidableEq

structure PackLifecycleResponse where
  pack : PackSummary
  oldLocator : Option Text
  deleted : Bool
deriving DecidableEq

/-- The kind of a pack operation is the kind of its outcome. -/
inductive PackOutcome where
  | create (pack : PackSummary)
  | add (outcome : PackMutationResponse)
  | remove (outcome : PackMutationResponse)
  | publish (outcome : PackMutationResponse)
  | rename (outcome : PackLifecycleResponse)
  | unpublish (outcome : PackLifecycleResponse)
  | delete (outcome : PackLifecycleResponse)
deriving DecidableEq

/-!
## Recorded subscriptions

The operations of an installation and of an account are two tables with the
same columns.
-/

structure PackSubscriptionResponse where
  resourceId : Uuid
  locator : Text
  subscribed : Bool
  generation : Nat
  version : Nat
deriving DecidableEq

structure SubscriptionOperationRow where
  subject : Uuid
  operationId : OperationId
  requestHash : RequestHash
  subscribe : Bool
  resourceId : Uuid
  subscribed : Bool
  pinnedReleaseVersion : Option Generation
  retainOnDelete : Bool
  packOutcome : Option PackSubscriptionResponse
deriving DecidableEq

structure TeamPackAssignmentResponse where
  teamNamespaceId : Uuid
  team : Text
  packResourceId : Uuid
  packLocator : Text
  assigned : Bool
  changed : Bool
deriving DecidableEq

/-!
## Recorded team operations
-/

structure TeamSummary where
  namespaceId : Uuid
  team : Text
  role : TeamRole
  membersCanPublish : Bool
deriving DecidableEq

structure TeamMutationResponse where
  team : TeamSummary
  changed : Bool
deriving DecidableEq

structure TeamLeaveResponse where
  team : Text
  left : Bool
deriving DecidableEq

inductive TeamOperationOutcome where
  | assignment (response : TeamPackAssignmentResponse)
  | memberRemove (response : TeamMutationResponse)
  | leave (response : TeamLeaveResponse)
deriving DecidableEq

/-!
## The database
-/

structure Db where
  directory : Directory
  resources : List ResourceRow := []
  redirects : List RedirectRow := []
  quarantines : List QuarantineRow := []
  shares : List ShareRow := []
  subscriptions : List SubscriptionRow := []
  workspaces : List WorkspaceRow := []
  snapshots : List SnapshotRow := []
  releases : List ReleaseRow := []
  forks : List ForkRow := []
  revisions : List RevisionRow := []
  revisionParents : List RevisionParentRow := []
  merkleTrees : List TreeId := []
  treeEntries : List TreeEntryRow := []
  canonicalBlobs : List CanonicalBlobRow := []
  canonicalBlobGc : List BlobId := []
  revisionBlobs : List RevisionBlobRow := []
  resourceBlobs : CountTable (Uuid × BlobId) := []
  namespaceBlobs : CountTable (Uuid × BlobId) := []
  importOperations : List ImportOperationRow := []
  revisionOperations : List RevisionOperationRow := []
  conflicts : List WorkspaceConflictRow := []
  releaseOperations : List (OperationRow PublishSkillResponse) := []
  restoreOperations : List (OperationRow PrivateRevisionResponse) := []
  lifecycleOperations : List (OperationRow LifecycleOutcome) := []
  transferOperations : List (OperationRow ResourceTransferResponse) := []
  proposals : List ProposalRow := []
  proposalOperations :
    List (OperationRow (ProposalAction × SkillProposal)) := []
  authorityEvents : List AuthorityEventRow := []
  authorityEventSequence : Nat := 0
  packRevisionMembers : List PackRevisionMemberRow := []
  packStates : List PackStateRow := []
  packMembers : List PackMemberRow := []
  packRevisions : List PackRevisionRow := []
  packOperations : List (OperationRow PackOutcome) := []
  packReleaseEventCompletions : List Nat := []
  installationSubscriptions : List InstallationSubscriptionRow := []
  subscriptionOperations : List SubscriptionOperationRow := []
  accountSubscriptionOperations : List SubscriptionOperationRow := []
  teamPackAssignments : List TeamPackAssignmentRow := []
  teamOperations : List (OperationRow TeamOperationOutcome) := []
  shareOperations : List (OperationRow ShareSkillResponse) := []
  adminOperations : List (OperationRow AdminOutcome) := []

/-- The edges of the revision graph, from a revision to its parents. -/
def Db.edges (db : Db) : List (RevisionId × RevisionId) :=
  db.revisionParents.map fun row => (row.revisionId, row.parentRevisionId)

end Denju
