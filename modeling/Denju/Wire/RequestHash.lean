import Denju.Core.Object
import Denju.Lib.Json

/-!
# Request hashes

Every mutation of the registry carries the hash of what it asks for, so that a
retry under one operation identifier is told from another request.  The hash
covers a domain, which names the action, and the canonical JSON of the fields.
The canonicalizer is outside the repository; a request never reaches the
registry when it fails.
-/

namespace Denju.Wire

open Lib

structure RequestHash where
  bytes : Digest
deriving DecidableEq

def RequestHash.toText (hash : RequestHash) : Text :=
  hex hash.bytes.toList

inductive RequestHashError where
  | canonicalization (message : Text)
deriving DecidableEq

/-!
## Domains
-/

def createInstallationDomain : Bytes :=
  utf8 "denju:http:v1:create-installation\x00".toList

def claimIdentityDomain : Bytes :=
  utf8 "denju:http:v1:claim-identity\x00".toList

def loginDomain : Bytes :=
  utf8 "denju:http:v1:login\x00".toList

def recoveryResetDomain : Bytes :=
  utf8 "denju:http:v1:recovery-reset\x00".toList

def identityBackupDomain : Bytes :=
  utf8 "denju:http:v1:identity-backup\x00".toList

def deviceRevokeDomain : Bytes :=
  utf8 "denju:http:v1:device-revoke\x00".toList

def tokenCreateDomain : Bytes :=
  utf8 "denju:http:v1:automation-token-create\x00".toList

def tokenRevokeDomain : Bytes :=
  utf8 "denju:http:v1:automation-token-revoke\x00".toList

def accountDeleteDomain : Bytes :=
  utf8 "denju:http:v1:account-delete\x00".toList

def subscribeDomain : Bytes :=
  utf8 "denju:http:v1:subscribe\x00".toList

def unsubscribeDomain : Bytes :=
  utf8 "denju:http:v1:unsubscribe\x00".toList

def privateRevisionDomain : Bytes :=
  utf8 "denju:http:v1:private-revision\x00".toList

def privateSkillImportDomain : Bytes :=
  utf8 "denju:http:v1:private-skill-import\x00".toList

def publishSkillDomain : Bytes :=
  utf8 "denju:http:v1:publish-skill\x00".toList

def restoreSkillDomain : Bytes :=
  utf8 "denju:http:v1:restore-skill\x00".toList

def renameSkillDomain : Bytes :=
  utf8 "denju:http:v1:rename-skill\x00".toList

def unpublishSkillDomain : Bytes :=
  utf8 "denju:http:v1:unpublish-skill\x00".toList

def deleteSkillDomain : Bytes :=
  utf8 "denju:http:v1:delete-skill\x00".toList

def deprecateSkillDomain : Bytes :=
  utf8 "denju:http:v1:deprecate-skill\x00".toList

def historyPruneDomain : Bytes :=
  utf8 "denju:http:v1:history-prune\x00".toList

def shareSkillDomain : Bytes :=
  utf8 "denju:http:v1:share-skill\x00".toList

def unshareSkillDomain : Bytes :=
  utf8 "denju:http:v1:unshare-skill\x00".toList

def proposalCreateDomain : Bytes :=
  utf8 "denju:http:v1:proposal-create\x00".toList

def proposalAcceptDomain : Bytes :=
  utf8 "denju:http:v1:proposal-accept\x00".toList

def proposalRejectDomain : Bytes :=
  utf8 "denju:http:v1:proposal-reject\x00".toList

def proposalWithdrawDomain : Bytes :=
  utf8 "denju:http:v1:proposal-withdraw\x00".toList

def packCreateDomain : Bytes :=
  utf8 "denju:http:v1:pack-create\x00".toList

def packAddDomain : Bytes :=
  utf8 "denju:http:v1:pack-add\x00".toList

def packRemoveDomain : Bytes :=
  utf8 "denju:http:v1:pack-remove\x00".toList

def packPublishDomain : Bytes :=
  utf8 "denju:http:v1:pack-publish\x00".toList

def packRenameDomain : Bytes :=
  utf8 "denju:http:v1:pack-rename\x00".toList

def packUnpublishDomain : Bytes :=
  utf8 "denju:http:v1:pack-unpublish\x00".toList

def packDeleteDomain : Bytes :=
  utf8 "denju:http:v1:pack-delete\x00".toList

def packSubscribeDomain : Bytes :=
  utf8 "denju:http:v1:pack-subscribe\x00".toList

def packUnsubscribeDomain : Bytes :=
  utf8 "denju:http:v1:pack-unsubscribe\x00".toList

def teamCreateDomain : Bytes :=
  utf8 "denju:http:v1:team-create\x00".toList

def teamInviteDomain : Bytes :=
  utf8 "denju:http:v1:team-invite\x00".toList

def teamInviteRevokeDomain : Bytes :=
  utf8 "denju:http:v1:team-invite-revoke\x00".toList

def teamJoinDomain : Bytes :=
  utf8 "denju:http:v1:team-join\x00".toList

def teamMemberRoleDomain : Bytes :=
  utf8 "denju:http:v1:team-member-role\x00".toList

def teamMemberRemoveDomain : Bytes :=
  utf8 "denju:http:v1:team-member-remove\x00".toList

def teamSettingsDomain : Bytes :=
  utf8 "denju:http:v1:team-settings\x00".toList

def teamPackAssignDomain : Bytes :=
  utf8 "denju:http:v1:team-pack-assign\x00".toList

def teamPackUnassignDomain : Bytes :=
  utf8 "denju:http:v1:team-pack-unassign\x00".toList

def teamLeaveDomain : Bytes :=
  utf8 "denju:http:v1:team-leave\x00".toList

def teamOwnerTransferDomain : Bytes :=
  utf8 "denju:http:v1:team-owner-transfer\x00".toList

def teamOwnerTransferAcceptDomain : Bytes :=
  utf8 "denju:http:v1:team-owner-transfer-accept\x00".toList

def teamDeleteDomain : Bytes :=
  utf8 "denju:http:v1:team-delete\x00".toList

def resourceTransferDomain : Bytes :=
  utf8 "denju:http:v1:resource-transfer\x00".toList

def profileUpdateDomain : Bytes :=
  utf8 "denju:http:v1:profile-update\x00".toList

def followDomain : Bytes :=
  utf8 "denju:http:v1:follow\x00".toList

def unfollowDomain : Bytes :=
  utf8 "denju:http:v1:unfollow\x00".toList

def starDomain : Bytes :=
  utf8 "denju:http:v1:star\x00".toList

def unstarDomain : Bytes :=
  utf8 "denju:http:v1:unstar\x00".toList

def topicsDomain : Bytes :=
  utf8 "denju:http:v1:resource-topics\x00".toList

def reportDomain : Bytes :=
  utf8 "denju:http:v1:report-resource\x00".toList

def quarantineDomain : Bytes :=
  utf8 "denju:http:v1:admin-quarantine\x00".toList

def unquarantineDomain : Bytes :=
  utf8 "denju:http:v1:admin-unquarantine\x00".toList

/-!
## Values inside the payloads
-/

inductive TeamRole where
  | owner
  | maintainer
  | member
deriving DecidableEq

def TeamRole.toJson : TeamRole -> Json
  | .owner => .string "owner".toList
  | .maintainer => .string "maintainer".toList
  | .member => .string "member".toList

structure PackMemberTarget where
  resourceId : Text
  releaseVersion : Option Nat

def PackMemberTarget.toJson (target : PackMemberTarget) : Json :=
  .object (("resource_id", .string target.resourceId) ::
    Json.optionalField "release_version" Json.number target.releaseVersion)

inductive PublicSkillManifestEntry where
  | file (path blobId : Text) (size : Nat) (executable : Bool)
  | directory (path : Text)
  | symlink (path target : Text)

def PublicSkillManifestEntry.toJson : PublicSkillManifestEntry -> Json
  | .file path blobId size executable =>
      .object
        [ ("kind", .string "file".toList),
          ("path", .string path),
          ("blob_id", .string blobId),
          ("size", .number size),
          ("executable", .bool executable) ]
  | .directory path =>
      .object
        [ ("kind", .string "directory".toList),
          ("path", .string path) ]
  | .symlink path target =>
      .object
        [ ("kind", .string "symlink".toList),
          ("path", .string path),
          ("target", .string target) ]

structure PublicSkillManifest where
  rootTreeId : Text
  entries : List PublicSkillManifestEntry

def PublicSkillManifest.toJson (manifest : PublicSkillManifest) : Json :=
  .object
    [ ("root_tree_id", .string manifest.rootTreeId),
      ("entries",
        Json.ofList PublicSkillManifestEntry.toJson manifest.entries) ]

structure ForkSyncIntent where
  (expectedSyncBaseRevisionId upstreamRevisionId : Text)

def ForkSyncIntent.toJson (intent : ForkSyncIntent) : Json :=
  .object
    [ ("expected_sync_base_revision_id",
        .string intent.expectedSyncBaseRevisionId),
      ("upstream_revision_id", .string intent.upstreamRevisionId) ]

structure ForkImportIntent where
  (upstreamResourceId upstreamRevisionId : Text)
  replaceSubscription : Bool
  (promotionHeadRevisionId historicalSkillName : Option Text)

def ForkImportIntent.toJson (intent : ForkImportIntent) : Json :=
  .object
    ([ ("upstream_resource_id", .string intent.upstreamResourceId),
      ("upstream_revision_id", .string intent.upstreamRevisionId),
      ("replace_subscription", .bool intent.replaceSubscription) ] ++
      Json.optionalField "promotion_head_revision_id" Json.string
        intent.promotionHeadRevisionId ++
      Json.optionalField "historical_skill_name" Json.string
        intent.historicalSkillName)

/-!
## Payloads

The payload of an identity mutation and the manifest of an import are whatever
JSON value the caller serializes.
-/

structure CreateInstallationHashInput where
  (operationId credentialHash : Text)

def CreateInstallationHashInput.toJson
    (input : CreateInstallationHashInput) : Json :=
  .object
    [ ("operation_id", .string input.operationId),
      ("credential_hash", .string input.credentialHash) ]

structure IdentityMutationInput where
  operationId : Text
  payload : JsonValue

def IdentityMutationInput.toJson (input : IdentityMutationInput) : Json :=
  .object
    [ ("operation_id", .string input.operationId),
      ("payload", input.payload.json) ]

structure SubscriptionHashInput where
  (operationId resourceId : Text)
  expectedGeneration : Nat
  releaseVersion : Option Nat
  retainOnDelete : Bool

def SubscriptionHashInput.toJson (input : SubscriptionHashInput) : Json :=
  .object
    [ ("operation_id", .string input.operationId),
      ("resource_id", .string input.resourceId),
      ("expected_generation", .number input.expectedGeneration),
      ("release_version", Json.ofOption Json.number input.releaseVersion),
      ("retain_on_delete", .bool input.retainOnDelete) ]

structure RenameSkillInput where
  (operationId resourceId : Text)
  expectedGeneration : Nat
  newName : Text
  preparedRevisionOperationId : Option Text

def RenameSkillInput.toJson (input : RenameSkillInput) : Json :=
  .object
    [ ("operation_id", .string input.operationId),
      ("resource_id", .string input.resourceId),
      ("expected_generation", .number input.expectedGeneration),
      ("new_name", .string input.newName),
      ("prepared_revision_operation_id",
        Json.ofOption Json.string input.preparedRevisionOperationId) ]

structure DeprecateSkillInput where
  (operationId resourceId : Text)
  expectedGeneration : Nat
  deprecated : Bool
  replacementResourceId : Option Text

def DeprecateSkillInput.toJson (input : DeprecateSkillInput) : Json :=
  .object
    [ ("operation_id", .string input.operationId),
      ("resource_id", .string input.resourceId),
      ("expected_generation", .number input.expectedGeneration),
      ("deprecated", .bool input.deprecated),
      ("replacement_resource_id",
        Json.ofOption Json.string input.replacementResourceId) ]

structure LifecycleResourceInput where
  (operationId resourceId : Text)
  expectedGeneration : Nat

def LifecycleResourceInput.toJson (input : LifecycleResourceInput) : Json :=
  .object
    [ ("operation_id", .string input.operationId),
      ("resource_id", .string input.resourceId),
      ("expected_generation", .number input.expectedGeneration) ]

structure PublishSkillInput where
  (operationId resourceId : Text)
  expectedGeneration : Nat
  isPublic : Bool
  message : Option Text
  tags : List Text

def PublishSkillInput.toJson (input : PublishSkillInput) : Json :=
  .object
    [ ("operation_id", .string input.operationId),
      ("resource_id", .string input.resourceId),
      ("expected_generation", .number input.expectedGeneration),
      ("public", .bool input.isPublic),
      ("message", Json.ofOption Json.string input.message),
      ("tags", Json.ofList Json.string input.tags) ]

structure RestoreSkillInput where
  (operationId resourceId : Text)
  expectedGeneration : Nat
  targetRevisionId : Text

def RestoreSkillInput.toJson (input : RestoreSkillInput) : Json :=
  .object
    [ ("operation_id", .string input.operationId),
      ("resource_id", .string input.resourceId),
      ("expected_generation", .number input.expectedGeneration),
      ("target_revision_id", .string input.targetRevisionId) ]

structure PrivateRevisionRequestHashInput where
  (operationId resourceId : Text)
  expectedGeneration : Nat
  expectedHeadRevisionId : Text
  parentRevisionIds : List Text
  manifest : PublicSkillManifest
  revisionAuthorPrincipalId : Option Text
  forkSync : Option ForkSyncIntent
  historicalSkillName : Option Text

def PrivateRevisionRequestHashInput.toJson
    (input : PrivateRevisionRequestHashInput) : Json :=
  .object
    [ ("operation_id", .string input.operationId),
      ("resource_id", .string input.resourceId),
      ("expected_generation", .number input.expectedGeneration),
      ("expected_head_revision_id", .string input.expectedHeadRevisionId),
      ("parent_revision_ids", Json.ofList Json.string input.parentRevisionIds),
      ("manifest", input.manifest.toJson),
      ("revision_author_principal_id",
        Json.ofOption Json.string input.revisionAuthorPrincipalId),
      ("fork_sync", Json.ofOption ForkSyncIntent.toJson input.forkSync),
      ("historical_skill_name",
        Json.ofOption Json.string input.historicalSkillName) ]

structure PrivateSkillImportRequestHashInput where
  operationId : Text
  expectedGeneration : Nat
  (owner name : Text)
  manifest : JsonValue
  snapshotSha256 : Text
  snapshotSizeBytes : Nat
  revisionAuthorPrincipalId : Option Text
  fork : Option ForkImportIntent

def PrivateSkillImportRequestHashInput.toJson
    (input : PrivateSkillImportRequestHashInput) : Json :=
  .object
    [ ("operation_id", .string input.operationId),
      ("expected_generation", .number input.expectedGeneration),
      ("owner", .string input.owner),
      ("name", .string input.name),
      ("manifest", input.manifest.json),
      ("snapshot_sha256", .string input.snapshotSha256),
      ("snapshot_size_bytes", .number input.snapshotSizeBytes),
      ("revision_author_principal_id",
        Json.ofOption Json.string input.revisionAuthorPrincipalId),
      ("fork", Json.ofOption ForkImportIntent.toJson input.fork) ]

structure ShareSkillInput where
  (operationId resourceId recipient : Text)

def ShareSkillInput.toJson (input : ShareSkillInput) : Json :=
  .object
    [ ("operation_id", .string input.operationId),
      ("resource_id", .string input.resourceId),
      ("recipient", .string input.recipient) ]

structure ProposalCreateInput where
  (operationId sourceResourceId : Text)
  expectedSourceGeneration : Nat
  message : Option Text

def ProposalCreateInput.toJson (input : ProposalCreateInput) : Json :=
  .object
    [ ("operation_id", .string input.operationId),
      ("source_resource_id", .string input.sourceResourceId),
      ("expected_source_generation", .number input.expectedSourceGeneration),
      ("message", Json.ofOption Json.string input.message) ]

structure ProposalCloseInput where
  (operationId proposalId : Text)
  expectedGeneration : Nat

def ProposalCloseInput.toJson (input : ProposalCloseInput) : Json :=
  .object
    [ ("operation_id", .string input.operationId),
      ("proposal_id", .string input.proposalId),
      ("expected_generation", .number input.expectedGeneration) ]

structure ProposalAcceptInput where
  (operationId proposalId : Text)
  expectedGeneration : Nat
  expectedProposedRevisionId : Text
  (expectedSourceGeneration expectedTargetGeneration : Nat)

def ProposalAcceptInput.toJson (input : ProposalAcceptInput) : Json :=
  .object
    [ ("operation_id", .string input.operationId),
      ("proposal_id", .string input.proposalId),
      ("expected_generation", .number input.expectedGeneration),
      ("expected_proposed_revision_id",
        .string input.expectedProposedRevisionId),
      ("expected_source_generation", .number input.expectedSourceGeneration),
      ("expected_target_generation", .number input.expectedTargetGeneration) ]

structure PackCreateInput where
  (operationId owner name : Text)

def PackCreateInput.toJson (input : PackCreateInput) : Json :=
  .object
    [ ("operation_id", .string input.operationId),
      ("owner", .string input.owner),
      ("name", .string input.name) ]

structure PackMutationInput where
  (operationId resourceId : Text)
  expectedGeneration : Nat
  members : List PackMemberTarget

def PackMutationInput.toJson (input : PackMutationInput) : Json :=
  .object
    [ ("operation_id", .string input.operationId),
      ("resource_id", .string input.resourceId),
      ("expected_generation", .number input.expectedGeneration),
      ("members", Json.ofList PackMemberTarget.toJson input.members) ]

structure PackPublishInput where
  (operationId resourceId : Text)
  expectedGeneration : Nat
  isPublic : Bool

def PackPublishInput.toJson (input : PackPublishInput) : Json :=
  .object
    [ ("operation_id", .string input.operationId),
      ("resource_id", .string input.resourceId),
      ("expected_generation", .number input.expectedGeneration),
      ("public", .bool input.isPublic) ]

structure PackRenameInput where
  (operationId resourceId : Text)
  expectedGeneration : Nat
  newName : Text

def PackRenameInput.toJson (input : PackRenameInput) : Json :=
  .object
    [ ("operation_id", .string input.operationId),
      ("resource_id", .string input.resourceId),
      ("expected_generation", .number input.expectedGeneration),
      ("new_name", .string input.newName) ]

structure TeamCreateInput where
  (operationId name : Text)

def TeamCreateInput.toJson (input : TeamCreateInput) : Json :=
  .object
    [ ("operation_id", .string input.operationId),
      ("name", .string input.name) ]

structure TeamInviteInput where
  (operationId team : Text)
  role : TeamRole
  inviteCodeHash : Text

def TeamInviteInput.toJson (input : TeamInviteInput) : Json :=
  .object
    [ ("operation_id", .string input.operationId),
      ("team", .string input.team),
      ("role", input.role.toJson),
      ("invite_code_hash", .string input.inviteCodeHash) ]

structure TeamInviteRevokeInput where
  (operationId team inviteId : Text)

def TeamInviteRevokeInput.toJson (input : TeamInviteRevokeInput) : Json :=
  .object
    [ ("operation_id", .string input.operationId),
      ("team", .string input.team),
      ("invite_id", .string input.inviteId) ]

/-- An operation with a secret code, of which the payload has the hash only. -/
structure CodeInput where
  (operationId code : Text)

def inviteCodeHash (ext : Externals) (code : Text) : RequestHash :=
  ⟨ext.sha256 (utf8 code)⟩

def teamOwnerTransferCodeHash (ext : Externals) (code : Text) : RequestHash :=
  ⟨ext.sha256 (utf8 code)⟩

def codeJson (operationId : Text) (codeHash : RequestHash) : Json :=
  .object
    [ ("operation_id", .string operationId),
      ("code_hash", .string codeHash.toText) ]

structure TeamMemberRoleInput where
  (operationId team member : Text)
  role : TeamRole

def TeamMemberRoleInput.toJson (input : TeamMemberRoleInput) : Json :=
  .object
    [ ("operation_id", .string input.operationId),
      ("team", .string input.team),
      ("member", .string input.member),
      ("role", input.role.toJson) ]

structure TeamMemberRemoveInput where
  (operationId team member : Text)

def TeamMemberRemoveInput.toJson (input : TeamMemberRemoveInput) : Json :=
  .object
    [ ("operation_id", .string input.operationId),
      ("team", .string input.team),
      ("member", .string input.member) ]

structure TeamSettingsInput where
  (operationId team : Text)
  membersCanPublish : Bool

def TeamSettingsInput.toJson (input : TeamSettingsInput) : Json :=
  .object
    [ ("operation_id", .string input.operationId),
      ("team", .string input.team),
      ("members_can_publish", .bool input.membersCanPublish) ]

structure TeamPackAssignmentInput where
  (operationId team packResourceId : Text)

def TeamPackAssignmentInput.toJson (input : TeamPackAssignmentInput) : Json :=
  .object
    [ ("operation_id", .string input.operationId),
      ("team", .string input.team),
      ("pack_resource_id", .string input.packResourceId) ]

structure TeamInput where
  (operationId team : Text)

def TeamInput.toJson (input : TeamInput) : Json :=
  .object
    [ ("operation_id", .string input.operationId),
      ("team", .string input.team) ]

structure TeamOwnerTransferInput where
  (operationId team member transferCodeHash : Text)

def TeamOwnerTransferInput.toJson (input : TeamOwnerTransferInput) : Json :=
  .object
    [ ("operation_id", .string input.operationId),
      ("team", .string input.team),
      ("member", .string input.member),
      ("transfer_code_hash", .string input.transferCodeHash) ]

structure ResourceTransferInput where
  (operationId resourceId : Text)
  expectedGeneration : Nat
  destinationTeam : Text

def ResourceTransferInput.toJson (input : ResourceTransferInput) : Json :=
  .object
    [ ("operation_id", .string input.operationId),
      ("resource_id", .string input.resourceId),
      ("expected_generation", .number input.expectedGeneration),
      ("destination_team", .string input.destinationTeam) ]

structure ProfileUpdateHashInput where
  operationId : Text
  bio : Option Text
  (followersVisible followingVisible : Bool)

def ProfileUpdateHashInput.toJson (input : ProfileUpdateHashInput) : Json :=
  .object
    [ ("operation_id", .string input.operationId),
      ("bio", Json.ofOption Json.string input.bio),
      ("followers_visible", .bool input.followersVisible),
      ("following_visible", .bool input.followingVisible) ]

structure TargetHashInput where
  (operationId targetId : Text)

def TargetHashInput.toJson (input : TargetHashInput) : Json :=
  .object
    [ ("operation_id", .string input.operationId),
      ("target_id", .string input.targetId) ]

structure TopicsHashInput where
  (operationId resourceId : Text)
  expectedGeneration : Nat
  topics : List Text

def TopicsHashInput.toJson (input : TopicsHashInput) : Json :=
  .object
    [ ("operation_id", .string input.operationId),
      ("resource_id", .string input.resourceId),
      ("expected_generation", .number input.expectedGeneration),
      ("topics", Json.ofList Json.string input.topics) ]

structure ReportHashInput where
  (operationId resourceId reason : Text)

def ReportHashInput.toJson (input : ReportHashInput) : Json :=
  .object
    [ ("operation_id", .string input.operationId),
      ("resource_id", .string input.resourceId),
      ("reason", .string input.reason) ]

structure AdminQuarantineHashInput where
  (operationId resourceId : Text)
  expectedGeneration : Nat
  releaseVersion : Option Nat
  reason : Text

def AdminQuarantineHashInput.toJson (input : AdminQuarantineHashInput) : Json :=
  .object
    [ ("operation_id", .string input.operationId),
      ("resource_id", .string input.resourceId),
      ("expected_generation", .number input.expectedGeneration),
      ("release_version", Json.ofOption Json.number input.releaseVersion),
      ("reason", .string input.reason) ]

/-!
## Hashes

The functions of the source, each with the record that it serializes.  Those
that take a kind pick the domain by it.
-/

variable (ext : Externals) (toVec : Json -> Except Text Bytes)

def hashPayload (domain : Bytes) (payload : Json) :
    Except RequestHashError RequestHash := do
  let canonical <- (toVec payload).mapError .canonicalization
  return ⟨ext.sha256 (domain ++ canonical)⟩

def createInstallationRequestHash (input : CreateInstallationHashInput) :
    Except RequestHashError RequestHash :=
  hashPayload ext toVec createInstallationDomain input.toJson

inductive IdentityMutationDomain where
  | claim
  | login
  | recoveryReset
  | backup
  | deviceRevoke
  | tokenCreate
  | tokenRevoke
  | accountDelete
deriving DecidableEq

def IdentityMutationDomain.bytes : IdentityMutationDomain -> Bytes
  | .claim => claimIdentityDomain
  | .login => loginDomain
  | .recoveryReset => recoveryResetDomain
  | .backup => identityBackupDomain
  | .deviceRevoke => deviceRevokeDomain
  | .tokenCreate => tokenCreateDomain
  | .tokenRevoke => tokenRevokeDomain
  | .accountDelete => accountDeleteDomain

def identityMutationRequestHash (domain : IdentityMutationDomain)
    (input : IdentityMutationInput) : Except RequestHashError RequestHash :=
  hashPayload ext toVec domain.bytes input.toJson

inductive SubscriptionMutationKind where
  | subscribe
  | unsubscribe
deriving DecidableEq

def subscriptionRequestHash (kind : SubscriptionMutationKind)
    (input : SubscriptionHashInput) : Except RequestHashError RequestHash :=
  let domain :=
    match kind with
    | .subscribe => subscribeDomain
    | .unsubscribe => unsubscribeDomain
  hashPayload ext toVec domain input.toJson

def renameSkillRequestHash (input : RenameSkillInput) :
    Except RequestHashError RequestHash :=
  hashPayload ext toVec renameSkillDomain input.toJson

def unpublishSkillRequestHash (input : LifecycleResourceInput) :
    Except RequestHashError RequestHash :=
  hashPayload ext toVec unpublishSkillDomain input.toJson

def deleteSkillRequestHash (input : LifecycleResourceInput) :
    Except RequestHashError RequestHash :=
  hashPayload ext toVec deleteSkillDomain input.toJson

def historyPruneRequestHash (input : LifecycleResourceInput) :
    Except RequestHashError RequestHash :=
  hashPayload ext toVec historyPruneDomain input.toJson

def deprecateSkillRequestHash (input : DeprecateSkillInput) :
    Except RequestHashError RequestHash :=
  hashPayload ext toVec deprecateSkillDomain input.toJson

def publishSkillRequestHash (input : PublishSkillInput) :
    Except RequestHashError RequestHash :=
  hashPayload ext toVec publishSkillDomain input.toJson

def restoreSkillRequestHash (input : RestoreSkillInput) :
    Except RequestHashError RequestHash :=
  hashPayload ext toVec restoreSkillDomain input.toJson

def privateRevisionRequestHash (input : PrivateRevisionRequestHashInput) :
    Except RequestHashError RequestHash :=
  hashPayload ext toVec privateRevisionDomain input.toJson

def privateSkillImportRequestHash (input : PrivateSkillImportRequestHashInput) :
    Except RequestHashError RequestHash :=
  hashPayload ext toVec privateSkillImportDomain input.toJson

inductive ShareMutationKind where
  | share
  | unshare
deriving DecidableEq

def shareSkillRequestHash (kind : ShareMutationKind)
    (input : ShareSkillInput) : Except RequestHashError RequestHash :=
  let domain :=
    match kind with
    | .share => shareSkillDomain
    | .unshare => unshareSkillDomain
  hashPayload ext toVec domain input.toJson

def proposalCreateRequestHash (input : ProposalCreateInput) :
    Except RequestHashError RequestHash :=
  hashPayload ext toVec proposalCreateDomain input.toJson

inductive ProposalCloseKind where
  | reject
  | withdraw
deriving DecidableEq

def proposalCloseRequestHash (kind : ProposalCloseKind)
    (input : ProposalCloseInput) : Except RequestHashError RequestHash :=
  let domain :=
    match kind with
    | .reject => proposalRejectDomain
    | .withdraw => proposalWithdrawDomain
  hashPayload ext toVec domain input.toJson

def proposalAcceptRequestHash (input : ProposalAcceptInput) :
    Except RequestHashError RequestHash :=
  hashPayload ext toVec proposalAcceptDomain input.toJson

def packCreateRequestHash (input : PackCreateInput) :
    Except RequestHashError RequestHash :=
  hashPayload ext toVec packCreateDomain input.toJson

inductive PackMutationKind where
  | add
  | remove
deriving DecidableEq

def packMutationRequestHash (kind : PackMutationKind)
    (input : PackMutationInput) : Except RequestHashError RequestHash :=
  let domain :=
    match kind with
    | .add => packAddDomain
    | .remove => packRemoveDomain
  hashPayload ext toVec domain input.toJson

def packPublishRequestHash (input : PackPublishInput) :
    Except RequestHashError RequestHash :=
  hashPayload ext toVec packPublishDomain input.toJson

def packRenameRequestHash (input : PackRenameInput) :
    Except RequestHashError RequestHash :=
  hashPayload ext toVec packRenameDomain input.toJson

def packUnpublishRequestHash (input : LifecycleResourceInput) :
    Except RequestHashError RequestHash :=
  hashPayload ext toVec packUnpublishDomain input.toJson

def packDeleteRequestHash (input : LifecycleResourceInput) :
    Except RequestHashError RequestHash :=
  hashPayload ext toVec packDeleteDomain input.toJson

inductive PackSubscriptionMutationKind where
  | subscribe
  | unsubscribe
deriving DecidableEq

def packSubscriptionRequestHash (kind : PackSubscriptionMutationKind)
    (input : LifecycleResourceInput) : Except RequestHashError RequestHash :=
  let domain :=
    match kind with
    | .subscribe => packSubscribeDomain
    | .unsubscribe => packUnsubscribeDomain
  hashPayload ext toVec domain input.toJson

def teamCreateRequestHash (input : TeamCreateInput) :
    Except RequestHashError RequestHash :=
  hashPayload ext toVec teamCreateDomain input.toJson

def teamInviteRequestHash (input : TeamInviteInput) :
    Except RequestHashError RequestHash :=
  hashPayload ext toVec teamInviteDomain input.toJson

def teamInviteRevokeRequestHash (input : TeamInviteRevokeInput) :
    Except RequestHashError RequestHash :=
  hashPayload ext toVec teamInviteRevokeDomain input.toJson

def teamJoinRequestHash (input : CodeInput) :
    Except RequestHashError RequestHash :=
  hashPayload ext toVec teamJoinDomain
    (codeJson input.operationId (inviteCodeHash ext input.code))

def teamMemberRoleRequestHash (input : TeamMemberRoleInput) :
    Except RequestHashError RequestHash :=
  hashPayload ext toVec teamMemberRoleDomain input.toJson

def teamMemberRemoveRequestHash (input : TeamMemberRemoveInput) :
    Except RequestHashError RequestHash :=
  hashPayload ext toVec teamMemberRemoveDomain input.toJson

def teamSettingsRequestHash (input : TeamSettingsInput) :
    Except RequestHashError RequestHash :=
  hashPayload ext toVec teamSettingsDomain input.toJson

inductive TeamPackAssignmentMutationKind where
  | assign
  | unassign
deriving DecidableEq

def teamPackAssignmentRequestHash (kind : TeamPackAssignmentMutationKind)
    (input : TeamPackAssignmentInput) : Except RequestHashError RequestHash :=
  let domain :=
    match kind with
    | .assign => teamPackAssignDomain
    | .unassign => teamPackUnassignDomain
  hashPayload ext toVec domain input.toJson

def teamLeaveRequestHash (input : TeamInput) :
    Except RequestHashError RequestHash :=
  hashPayload ext toVec teamLeaveDomain input.toJson

def teamOwnerTransferRequestHash (input : TeamOwnerTransferInput) :
    Except RequestHashError RequestHash :=
  hashPayload ext toVec teamOwnerTransferDomain input.toJson

def teamOwnerTransferAcceptRequestHash (input : CodeInput) :
    Except RequestHashError RequestHash :=
  hashPayload ext toVec teamOwnerTransferAcceptDomain
    (codeJson input.operationId (teamOwnerTransferCodeHash ext input.code))

def teamDeleteRequestHash (input : TeamInput) :
    Except RequestHashError RequestHash :=
  hashPayload ext toVec teamDeleteDomain input.toJson

def resourceTransferRequestHash (input : ResourceTransferInput) :
    Except RequestHashError RequestHash :=
  hashPayload ext toVec resourceTransferDomain input.toJson

def profileUpdateRequestHash (input : ProfileUpdateHashInput) :
    Except RequestHashError RequestHash :=
  hashPayload ext toVec profileUpdateDomain input.toJson

inductive FollowMutationKind where
  | follow
  | unfollow
deriving DecidableEq

def followRequestHash (kind : FollowMutationKind)
    (input : TargetHashInput) : Except RequestHashError RequestHash :=
  let domain :=
    match kind with
    | .follow => followDomain
    | .unfollow => unfollowDomain
  hashPayload ext toVec domain input.toJson

inductive StarMutationKind where
  | star
  | unstar
deriving DecidableEq

def starRequestHash (kind : StarMutationKind)
    (input : TargetHashInput) : Except RequestHashError RequestHash :=
  let domain :=
    match kind with
    | .star => starDomain
    | .unstar => unstarDomain
  hashPayload ext toVec domain input.toJson

def resourceTopicsRequestHash (input : TopicsHashInput) :
    Except RequestHashError RequestHash :=
  hashPayload ext toVec topicsDomain input.toJson

def reportResourceRequestHash (input : ReportHashInput) :
    Except RequestHashError RequestHash :=
  hashPayload ext toVec reportDomain input.toJson

inductive AdminQuarantineMutationKind where
  | quarantine
  | unquarantine
deriving DecidableEq

def adminQuarantineRequestHash (kind : AdminQuarantineMutationKind)
    (input : AdminQuarantineHashInput) : Except RequestHashError RequestHash :=
  let domain :=
    match kind with
    | .quarantine => quarantineDomain
    | .unquarantine => unquarantineDomain
  hashPayload ext toVec domain input.toJson

end Denju.Wire
