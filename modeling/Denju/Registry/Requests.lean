import Denju.Registry.Storage

/-!
# Requests

The requests of the registry, after their identifiers have been parsed.  The
hash that a request carries is the hash of its canonical rendering; the
functions that compute it are parameters of the registry.
-/

namespace Denju

open Lib

structure PrivateRevisionRequestHashInput where
  operationId : OperationId
  resourceId : Uuid
  expectedGeneration : UInt64
  expectedHeadRevisionId : RevisionId
  parentRevisionIds : List RevisionId
  manifest : SkillManifest
  revisionAuthorPrincipalId : Option AuthorPrincipalId
  forkSync : Option ValidatedForkSync
  historicalSkillName : Option Text

structure PrivateRevisionRequest extends PrivateRevisionRequestHashInput where
  requestHash : RequestHash

structure PrivateRevisionPrepareResponse where
  resourceId : Uuid
  revisionId : RevisionId
  expectedGeneration : Nat
  state : PrivateRevisionOperationState
  uploads : List StagingRow
deriving DecidableEq

/-- A commit, of an import or of a revision, repeats the identity of its
prepared request. -/
structure CommitRequest where
  operationId : OperationId
  requestHash : RequestHash

structure PrivateSkillImportRequestHashInput where
  operationId : OperationId
  expectedGeneration : UInt64
  owner : Text
  name : Text
  manifest : SkillManifest
  snapshotSha256 : BlobId
  snapshotSizeBytes : Nat
  revisionAuthorPrincipalId : Option AuthorPrincipalId
  fork : Option ValidatedFork

structure PrivateSkillImportRequest extends
    PrivateSkillImportRequestHashInput where
  requestHash : RequestHash

structure PrivateSkillImportPrepareResponse where
  resourceId : Uuid
  locator : Text
  revisionId : RevisionId
  generation : Nat
  committed : Bool
  uploads : List StagingRow
deriving DecidableEq

structure PublishSkillRequestHashInput where
  operationId : OperationId
  resourceId : Uuid
  expectedGeneration : UInt64
  isPublic : Bool
  message : Option Text
  tags : List Text

structure PublishSkillRequest extends PublishSkillRequestHashInput where
  requestHash : RequestHash

structure RestoreSkillRequestHashInput where
  operationId : OperationId
  resourceId : Uuid
  expectedGeneration : UInt64
  targetRevisionId : RevisionId

structure RestoreSkillRequest extends RestoreSkillRequestHashInput where
  requestHash : RequestHash

structure RenameSkillRequestHashInput where
  operationId : OperationId
  resourceId : Uuid
  expectedGeneration : UInt64
  newName : Text
  preparedRevisionOperationId : Option OperationId

structure RenameSkillRequest extends RenameSkillRequestHashInput where
  requestHash : RequestHash

structure ResourceLifecycleRequestHashInput where
  operationId : OperationId
  resourceId : Uuid
  expectedGeneration : UInt64

structure ResourceLifecycleRequest extends
    ResourceLifecycleRequestHashInput where
  requestHash : RequestHash

structure ResourceTransferRequestHashInput where
  operationId : OperationId
  resourceId : Uuid
  expectedGeneration : UInt64
  destinationTeam : Text

structure ResourceTransferRequest extends
    ResourceTransferRequestHashInput where
  requestHash : RequestHash

structure ProposalCreateRequestHashInput where
  operationId : OperationId
  sourceResourceId : Uuid
  expectedSourceGeneration : UInt64
  message : Option Text

structure ProposalCreateRequest extends ProposalCreateRequestHashInput where
  requestHash : RequestHash

structure ProposalAcceptRequestHashInput where
  operationId : OperationId
  proposalId : Uuid
  expectedGeneration : UInt64
  expectedProposedRevisionId : RevisionId
  expectedSourceGeneration : UInt64
  expectedTargetGeneration : UInt64

structure ProposalAcceptRequest extends ProposalAcceptRequestHashInput where
  requestHash : RequestHash

structure DeprecateSkillRequestHashInput where
  operationId : OperationId
  resourceId : Uuid
  expectedGeneration : UInt64
  deprecated : Bool
  replacementResourceId : Option Uuid

structure DeprecateSkillRequest extends DeprecateSkillRequestHashInput where
  requestHash : RequestHash

inductive ShareMutationKind where
  | share
  | unshare
deriving DecidableEq, Repr

structure ShareSkillRequestHashInput where
  operationId : OperationId
  resourceId : Uuid
  recipient : Text

structure ShareSkillRequest extends ShareSkillRequestHashInput where
  requestHash : RequestHash

inductive AdminQuarantineMutationKind where
  | quarantine
  | unquarantine
deriving DecidableEq, Repr

structure AdminQuarantineRequestHashInput where
  operationId : OperationId
  resourceId : Uuid
  expectedGeneration : UInt64
  releaseVersion : Option UInt64
  reason : Text

structure AdminQuarantineRequest extends
    AdminQuarantineRequestHashInput where
  requestHash : RequestHash

structure PackCreateRequestHashInput where
  operationId : OperationId
  owner : Text
  name : Text

structure PackCreateRequest extends PackCreateRequestHashInput where
  requestHash : RequestHash

inductive PackMutationKind where
  | add
  | remove
deriving DecidableEq, Repr

structure PackMemberTarget where
  resourceId : Uuid
  releaseVersion : Option UInt64
deriving DecidableEq

structure PackMutationRequestHashInput where
  operationId : OperationId
  resourceId : Uuid
  expectedGeneration : UInt64
  members : List PackMemberTarget

structure PackMutationRequest extends PackMutationRequestHashInput where
  requestHash : RequestHash

structure PackPublishRequestHashInput where
  operationId : OperationId
  resourceId : Uuid
  expectedGeneration : UInt64
  isPublic : Bool

structure PackPublishRequest extends PackPublishRequestHashInput where
  requestHash : RequestHash

structure PackRenameRequestHashInput where
  operationId : OperationId
  resourceId : Uuid
  expectedGeneration : UInt64
  newName : Text

structure PackRenameRequest extends PackRenameRequestHashInput where
  requestHash : RequestHash

inductive SubscriptionMutationKind where
  | subscribe
  | unsubscribe
deriving DecidableEq, Repr

structure SubscriptionMutationRequestHashInput where
  operationId : OperationId
  resourceId : Uuid
  expectedGeneration : UInt64
  releaseVersion : Option UInt64
  retainOnDelete : Bool

structure SubscriptionMutationRequest extends
    SubscriptionMutationRequestHashInput where
  requestHash : RequestHash

inductive TeamPackAssignmentMutationKind where
  | assign
  | unassign
deriving DecidableEq, Repr

structure TeamPackAssignmentRequestHashInput where
  operationId : OperationId
  team : Text
  packResourceId : Uuid

structure TeamPackAssignmentRequest extends
    TeamPackAssignmentRequestHashInput where
  requestHash : RequestHash

structure TeamMemberRemoveRequestHashInput where
  operationId : OperationId
  team : Text
  member : Text

structure TeamMemberRemoveRequest extends
    TeamMemberRemoveRequestHashInput where
  requestHash : RequestHash

structure TeamLeaveRequestHashInput where
  operationId : OperationId
  team : Text

structure TeamLeaveRequest extends TeamLeaveRequestHashInput where
  requestHash : RequestHash

structure RequestHashes where
  privateRevision :
    PrivateRevisionRequestHashInput -> Except Text RequestHash
  privateSkillImport :
    PrivateSkillImportRequestHashInput -> Except Text RequestHash
  publishSkill : PublishSkillRequestHashInput -> Except Text RequestHash
  restoreSkill : RestoreSkillRequestHashInput -> Except Text RequestHash
  renameSkill : RenameSkillRequestHashInput -> Except Text RequestHash
  unpublishSkill : ResourceLifecycleRequestHashInput -> Except Text RequestHash
  historyPrune : ResourceLifecycleRequestHashInput -> Except Text RequestHash
  resourceTransfer :
    ResourceTransferRequestHashInput -> Except Text RequestHash
  proposalCreate : ProposalCreateRequestHashInput -> Except Text RequestHash
  proposalAccept : ProposalAcceptRequestHashInput -> Except Text RequestHash
  deleteSkill : ResourceLifecycleRequestHashInput -> Except Text RequestHash
  deprecateSkill : DeprecateSkillRequestHashInput -> Except Text RequestHash
  shareSkill :
    ShareMutationKind -> ShareSkillRequestHashInput -> Except Text RequestHash
  adminQuarantine :
    AdminQuarantineMutationKind -> AdminQuarantineRequestHashInput ->
      Except Text RequestHash
  packCreate : PackCreateRequestHashInput -> Except Text RequestHash
  packMutation :
    PackMutationKind -> PackMutationRequestHashInput -> Except Text RequestHash
  packPublish : PackPublishRequestHashInput -> Except Text RequestHash
  packRename : PackRenameRequestHashInput -> Except Text RequestHash
  packUnpublish : ResourceLifecycleRequestHashInput -> Except Text RequestHash
  packDelete : ResourceLifecycleRequestHashInput -> Except Text RequestHash
  subscription :
    SubscriptionMutationKind -> SubscriptionMutationRequestHashInput ->
      Except Text RequestHash
  packSubscription :
    SubscriptionMutationKind -> ResourceLifecycleRequestHashInput ->
      Except Text RequestHash
  teamPackAssignment :
    TeamPackAssignmentMutationKind -> TeamPackAssignmentRequestHashInput ->
      Except Text RequestHash
  teamMemberRemove :
    TeamMemberRemoveRequestHashInput -> Except Text RequestHash
  teamLeave : TeamLeaveRequestHashInput -> Except Text RequestHash

structure Registry where
  ext : Externals
  limits : Limits
  hashes : RequestHashes

/-- The supplied hash must be the computed one. -/
def checkRequestHash (supplied : RequestHash)
    (expected : Except Text RequestHash) (mismatch : String) :
    Except ApiError Unit := do
  let expected <- expected.mapError fun source =>
    { code := .invalidRequestHash, message := .requestHash source }
  ensure (supplied == expected)
    (ApiError.new .invalidRequestHash mismatch)

theorem checkRequestHash_eq_ok {supplied : RequestHash}
    {expected : Except Text RequestHash} {mismatch : String} :
    checkRequestHash supplied expected mismatch = .ok () <->
      expected = .ok supplied := by
  unfold checkRequestHash
  cases expected with
  | error source => simp [Except.mapError, bind, Except.bind]
  | ok hash =>
      simp only [Except.mapError, bind, Except.bind, ensure_eq_ok,
        beq_iff_eq, Except.ok.injEq]
      exact eq_comm

end Denju
