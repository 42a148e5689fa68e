import Denju.Core.ContentAddressing
import Denju.Wire.RequestHash

/-!
# Request hashes bind the request

A request hash covers a domain of its own for every kind of mutation, closed by
a zero byte, and after it the canonical JSON of the fields.  The kind is read
back from the bytes up to the first zero, and the fields from the rest: every
payload keeps each field under a name of its own, so that two payloads with the
same JSON value have the same fields.
-/

namespace Denju.Wire

open Lib

/-!
## Requests
-/

inductive MutationKind where
  | createInstallation
  | claim
  | login
  | recoveryReset
  | backup
  | deviceRevoke
  | tokenCreate
  | tokenRevoke
  | accountDelete
  | subscribe
  | unsubscribe
  | privateRevision
  | privateSkillImport
  | publishSkill
  | restoreSkill
  | renameSkill
  | unpublishSkill
  | deleteSkill
  | deprecateSkill
  | historyPrune
  | shareSkill
  | unshareSkill
  | proposalCreate
  | proposalAccept
  | proposalReject
  | proposalWithdraw
  | packCreate
  | packAdd
  | packRemove
  | packPublish
  | packRename
  | packUnpublish
  | packDelete
  | packSubscribe
  | packUnsubscribe
  | teamCreate
  | teamInvite
  | teamInviteRevoke
  | teamJoin
  | teamMemberRole
  | teamMemberRemove
  | teamSettings
  | teamPackAssign
  | teamPackUnassign
  | teamLeave
  | teamOwnerTransfer
  | teamOwnerTransferAccept
  | teamDelete
  | resourceTransfer
  | profileUpdate
  | follow
  | unfollow
  | star
  | unstar
  | resourceTopics
  | reportResource
  | quarantine
  | unquarantine
deriving DecidableEq

def MutationKind.domain : MutationKind -> Bytes
  | .createInstallation => createInstallationDomain
  | .claim => claimIdentityDomain
  | .login => loginDomain
  | .recoveryReset => recoveryResetDomain
  | .backup => identityBackupDomain
  | .deviceRevoke => deviceRevokeDomain
  | .tokenCreate => tokenCreateDomain
  | .tokenRevoke => tokenRevokeDomain
  | .accountDelete => accountDeleteDomain
  | .subscribe => subscribeDomain
  | .unsubscribe => unsubscribeDomain
  | .privateRevision => privateRevisionDomain
  | .privateSkillImport => privateSkillImportDomain
  | .publishSkill => publishSkillDomain
  | .restoreSkill => restoreSkillDomain
  | .renameSkill => renameSkillDomain
  | .unpublishSkill => unpublishSkillDomain
  | .deleteSkill => deleteSkillDomain
  | .deprecateSkill => deprecateSkillDomain
  | .historyPrune => historyPruneDomain
  | .shareSkill => shareSkillDomain
  | .unshareSkill => unshareSkillDomain
  | .proposalCreate => proposalCreateDomain
  | .proposalAccept => proposalAcceptDomain
  | .proposalReject => proposalRejectDomain
  | .proposalWithdraw => proposalWithdrawDomain
  | .packCreate => packCreateDomain
  | .packAdd => packAddDomain
  | .packRemove => packRemoveDomain
  | .packPublish => packPublishDomain
  | .packRename => packRenameDomain
  | .packUnpublish => packUnpublishDomain
  | .packDelete => packDeleteDomain
  | .packSubscribe => packSubscribeDomain
  | .packUnsubscribe => packUnsubscribeDomain
  | .teamCreate => teamCreateDomain
  | .teamInvite => teamInviteDomain
  | .teamInviteRevoke => teamInviteRevokeDomain
  | .teamJoin => teamJoinDomain
  | .teamMemberRole => teamMemberRoleDomain
  | .teamMemberRemove => teamMemberRemoveDomain
  | .teamSettings => teamSettingsDomain
  | .teamPackAssign => teamPackAssignDomain
  | .teamPackUnassign => teamPackUnassignDomain
  | .teamLeave => teamLeaveDomain
  | .teamOwnerTransfer => teamOwnerTransferDomain
  | .teamOwnerTransferAccept => teamOwnerTransferAcceptDomain
  | .teamDelete => teamDeleteDomain
  | .resourceTransfer => resourceTransferDomain
  | .profileUpdate => profileUpdateDomain
  | .follow => followDomain
  | .unfollow => unfollowDomain
  | .star => starDomain
  | .unstar => unstarDomain
  | .resourceTopics => topicsDomain
  | .reportResource => reportDomain
  | .quarantine => quarantineDomain
  | .unquarantine => unquarantineDomain

/-- The fields that the hash of a mutation covers. -/
def MutationKind.Input : MutationKind -> Type
  | .createInstallation => CreateInstallationHashInput
  | .claim => IdentityMutationInput
  | .login => IdentityMutationInput
  | .recoveryReset => IdentityMutationInput
  | .backup => IdentityMutationInput
  | .deviceRevoke => IdentityMutationInput
  | .tokenCreate => IdentityMutationInput
  | .tokenRevoke => IdentityMutationInput
  | .accountDelete => IdentityMutationInput
  | .subscribe => SubscriptionHashInput
  | .unsubscribe => SubscriptionHashInput
  | .privateRevision => PrivateRevisionRequestHashInput
  | .privateSkillImport => PrivateSkillImportRequestHashInput
  | .publishSkill => PublishSkillInput
  | .restoreSkill => RestoreSkillInput
  | .renameSkill => RenameSkillInput
  | .unpublishSkill => LifecycleResourceInput
  | .deleteSkill => LifecycleResourceInput
  | .deprecateSkill => DeprecateSkillInput
  | .historyPrune => LifecycleResourceInput
  | .shareSkill => ShareSkillInput
  | .unshareSkill => ShareSkillInput
  | .proposalCreate => ProposalCreateInput
  | .proposalAccept => ProposalAcceptInput
  | .proposalReject => ProposalCloseInput
  | .proposalWithdraw => ProposalCloseInput
  | .packCreate => PackCreateInput
  | .packAdd => PackMutationInput
  | .packRemove => PackMutationInput
  | .packPublish => PackPublishInput
  | .packRename => PackRenameInput
  | .packUnpublish => LifecycleResourceInput
  | .packDelete => LifecycleResourceInput
  | .packSubscribe => LifecycleResourceInput
  | .packUnsubscribe => LifecycleResourceInput
  | .teamCreate => TeamCreateInput
  | .teamInvite => TeamInviteInput
  | .teamInviteRevoke => TeamInviteRevokeInput
  | .teamJoin => CodeInput
  | .teamMemberRole => TeamMemberRoleInput
  | .teamMemberRemove => TeamMemberRemoveInput
  | .teamSettings => TeamSettingsInput
  | .teamPackAssign => TeamPackAssignmentInput
  | .teamPackUnassign => TeamPackAssignmentInput
  | .teamLeave => TeamInput
  | .teamOwnerTransfer => TeamOwnerTransferInput
  | .teamOwnerTransferAccept => CodeInput
  | .teamDelete => TeamInput
  | .resourceTransfer => ResourceTransferInput
  | .profileUpdate => ProfileUpdateHashInput
  | .follow => TargetHashInput
  | .unfollow => TargetHashInput
  | .star => TargetHashInput
  | .unstar => TargetHashInput
  | .resourceTopics => TopicsHashInput
  | .reportResource => ReportHashInput
  | .quarantine => AdminQuarantineHashInput
  | .unquarantine => AdminQuarantineHashInput

/-- A call of the hash function of its kind. -/
structure RequestCall where
  kind : MutationKind
  input : kind.Input

namespace RequestCall

variable (ext : Externals) (toVec : Json -> Except Text Bytes)

def requestHash (call : RequestCall) : Except RequestHashError RequestHash :=
  match call with
  | ⟨.createInstallation, input⟩ =>
      createInstallationRequestHash ext toVec input
  | ⟨.claim, input⟩ => identityMutationRequestHash ext toVec .claim input
  | ⟨.login, input⟩ => identityMutationRequestHash ext toVec .login input
  | ⟨.recoveryReset, input⟩ =>
      identityMutationRequestHash ext toVec .recoveryReset input
  | ⟨.backup, input⟩ => identityMutationRequestHash ext toVec .backup input
  | ⟨.deviceRevoke, input⟩ =>
      identityMutationRequestHash ext toVec .deviceRevoke input
  | ⟨.tokenCreate, input⟩ =>
      identityMutationRequestHash ext toVec .tokenCreate input
  | ⟨.tokenRevoke, input⟩ =>
      identityMutationRequestHash ext toVec .tokenRevoke input
  | ⟨.accountDelete, input⟩ =>
      identityMutationRequestHash ext toVec .accountDelete input
  | ⟨.subscribe, input⟩ => subscriptionRequestHash ext toVec .subscribe input
  | ⟨.unsubscribe, input⟩ =>
      subscriptionRequestHash ext toVec .unsubscribe input
  | ⟨.privateRevision, input⟩ => privateRevisionRequestHash ext toVec input
  | ⟨.privateSkillImport, input⟩ =>
      privateSkillImportRequestHash ext toVec input
  | ⟨.publishSkill, input⟩ => publishSkillRequestHash ext toVec input
  | ⟨.restoreSkill, input⟩ => restoreSkillRequestHash ext toVec input
  | ⟨.renameSkill, input⟩ => renameSkillRequestHash ext toVec input
  | ⟨.unpublishSkill, input⟩ => unpublishSkillRequestHash ext toVec input
  | ⟨.deleteSkill, input⟩ => deleteSkillRequestHash ext toVec input
  | ⟨.deprecateSkill, input⟩ => deprecateSkillRequestHash ext toVec input
  | ⟨.historyPrune, input⟩ => historyPruneRequestHash ext toVec input
  | ⟨.shareSkill, input⟩ => shareSkillRequestHash ext toVec .share input
  | ⟨.unshareSkill, input⟩ => shareSkillRequestHash ext toVec .unshare input
  | ⟨.proposalCreate, input⟩ => proposalCreateRequestHash ext toVec input
  | ⟨.proposalAccept, input⟩ => proposalAcceptRequestHash ext toVec input
  | ⟨.proposalReject, input⟩ => proposalCloseRequestHash ext toVec .reject input
  | ⟨.proposalWithdraw, input⟩ =>
      proposalCloseRequestHash ext toVec .withdraw input
  | ⟨.packCreate, input⟩ => packCreateRequestHash ext toVec input
  | ⟨.packAdd, input⟩ => packMutationRequestHash ext toVec .add input
  | ⟨.packRemove, input⟩ => packMutationRequestHash ext toVec .remove input
  | ⟨.packPublish, input⟩ => packPublishRequestHash ext toVec input
  | ⟨.packRename, input⟩ => packRenameRequestHash ext toVec input
  | ⟨.packUnpublish, input⟩ => packUnpublishRequestHash ext toVec input
  | ⟨.packDelete, input⟩ => packDeleteRequestHash ext toVec input
  | ⟨.packSubscribe, input⟩ =>
      packSubscriptionRequestHash ext toVec .subscribe input
  | ⟨.packUnsubscribe, input⟩ =>
      packSubscriptionRequestHash ext toVec .unsubscribe input
  | ⟨.teamCreate, input⟩ => teamCreateRequestHash ext toVec input
  | ⟨.teamInvite, input⟩ => teamInviteRequestHash ext toVec input
  | ⟨.teamInviteRevoke, input⟩ => teamInviteRevokeRequestHash ext toVec input
  | ⟨.teamJoin, input⟩ => teamJoinRequestHash ext toVec input
  | ⟨.teamMemberRole, input⟩ => teamMemberRoleRequestHash ext toVec input
  | ⟨.teamMemberRemove, input⟩ => teamMemberRemoveRequestHash ext toVec input
  | ⟨.teamSettings, input⟩ => teamSettingsRequestHash ext toVec input
  | ⟨.teamPackAssign, input⟩ =>
      teamPackAssignmentRequestHash ext toVec .assign input
  | ⟨.teamPackUnassign, input⟩ =>
      teamPackAssignmentRequestHash ext toVec .unassign input
  | ⟨.teamLeave, input⟩ => teamLeaveRequestHash ext toVec input
  | ⟨.teamOwnerTransfer, input⟩ => teamOwnerTransferRequestHash ext toVec input
  | ⟨.teamOwnerTransferAccept, input⟩ =>
      teamOwnerTransferAcceptRequestHash ext toVec input
  | ⟨.teamDelete, input⟩ => teamDeleteRequestHash ext toVec input
  | ⟨.resourceTransfer, input⟩ => resourceTransferRequestHash ext toVec input
  | ⟨.profileUpdate, input⟩ => profileUpdateRequestHash ext toVec input
  | ⟨.follow, input⟩ => followRequestHash ext toVec .follow input
  | ⟨.unfollow, input⟩ => followRequestHash ext toVec .unfollow input
  | ⟨.star, input⟩ => starRequestHash ext toVec .star input
  | ⟨.unstar, input⟩ => starRequestHash ext toVec .unstar input
  | ⟨.resourceTopics, input⟩ => resourceTopicsRequestHash ext toVec input
  | ⟨.reportResource, input⟩ => reportResourceRequestHash ext toVec input
  | ⟨.quarantine, input⟩ =>
      adminQuarantineRequestHash ext toVec .quarantine input
  | ⟨.unquarantine, input⟩ =>
      adminQuarantineRequestHash ext toVec .unquarantine input

/-- The value that is serialized. -/
def payload (call : RequestCall) : Json :=
  match call with
  | ⟨.createInstallation, input⟩ => CreateInstallationHashInput.toJson input
  | ⟨.claim, input⟩ => IdentityMutationInput.toJson input
  | ⟨.login, input⟩ => IdentityMutationInput.toJson input
  | ⟨.recoveryReset, input⟩ => IdentityMutationInput.toJson input
  | ⟨.backup, input⟩ => IdentityMutationInput.toJson input
  | ⟨.deviceRevoke, input⟩ => IdentityMutationInput.toJson input
  | ⟨.tokenCreate, input⟩ => IdentityMutationInput.toJson input
  | ⟨.tokenRevoke, input⟩ => IdentityMutationInput.toJson input
  | ⟨.accountDelete, input⟩ => IdentityMutationInput.toJson input
  | ⟨.subscribe, input⟩ => SubscriptionHashInput.toJson input
  | ⟨.unsubscribe, input⟩ => SubscriptionHashInput.toJson input
  | ⟨.privateRevision, input⟩ => PrivateRevisionRequestHashInput.toJson input
  | ⟨.privateSkillImport, input⟩ =>
      PrivateSkillImportRequestHashInput.toJson input
  | ⟨.publishSkill, input⟩ => PublishSkillInput.toJson input
  | ⟨.restoreSkill, input⟩ => RestoreSkillInput.toJson input
  | ⟨.renameSkill, input⟩ => RenameSkillInput.toJson input
  | ⟨.unpublishSkill, input⟩ => LifecycleResourceInput.toJson input
  | ⟨.deleteSkill, input⟩ => LifecycleResourceInput.toJson input
  | ⟨.deprecateSkill, input⟩ => DeprecateSkillInput.toJson input
  | ⟨.historyPrune, input⟩ => LifecycleResourceInput.toJson input
  | ⟨.shareSkill, input⟩ => ShareSkillInput.toJson input
  | ⟨.unshareSkill, input⟩ => ShareSkillInput.toJson input
  | ⟨.proposalCreate, input⟩ => ProposalCreateInput.toJson input
  | ⟨.proposalAccept, input⟩ => ProposalAcceptInput.toJson input
  | ⟨.proposalReject, input⟩ => ProposalCloseInput.toJson input
  | ⟨.proposalWithdraw, input⟩ => ProposalCloseInput.toJson input
  | ⟨.packCreate, input⟩ => PackCreateInput.toJson input
  | ⟨.packAdd, input⟩ => PackMutationInput.toJson input
  | ⟨.packRemove, input⟩ => PackMutationInput.toJson input
  | ⟨.packPublish, input⟩ => PackPublishInput.toJson input
  | ⟨.packRename, input⟩ => PackRenameInput.toJson input
  | ⟨.packUnpublish, input⟩ => LifecycleResourceInput.toJson input
  | ⟨.packDelete, input⟩ => LifecycleResourceInput.toJson input
  | ⟨.packSubscribe, input⟩ => LifecycleResourceInput.toJson input
  | ⟨.packUnsubscribe, input⟩ => LifecycleResourceInput.toJson input
  | ⟨.teamCreate, input⟩ => TeamCreateInput.toJson input
  | ⟨.teamInvite, input⟩ => TeamInviteInput.toJson input
  | ⟨.teamInviteRevoke, input⟩ => TeamInviteRevokeInput.toJson input
  | ⟨.teamJoin, input⟩ =>
      codeJson input.operationId (inviteCodeHash ext input.code)
  | ⟨.teamMemberRole, input⟩ => TeamMemberRoleInput.toJson input
  | ⟨.teamMemberRemove, input⟩ => TeamMemberRemoveInput.toJson input
  | ⟨.teamSettings, input⟩ => TeamSettingsInput.toJson input
  | ⟨.teamPackAssign, input⟩ => TeamPackAssignmentInput.toJson input
  | ⟨.teamPackUnassign, input⟩ => TeamPackAssignmentInput.toJson input
  | ⟨.teamLeave, input⟩ => TeamInput.toJson input
  | ⟨.teamOwnerTransfer, input⟩ => TeamOwnerTransferInput.toJson input
  | ⟨.teamOwnerTransferAccept, input⟩ =>
      codeJson input.operationId (teamOwnerTransferCodeHash ext input.code)
  | ⟨.teamDelete, input⟩ => TeamInput.toJson input
  | ⟨.resourceTransfer, input⟩ => ResourceTransferInput.toJson input
  | ⟨.profileUpdate, input⟩ => ProfileUpdateHashInput.toJson input
  | ⟨.follow, input⟩ => TargetHashInput.toJson input
  | ⟨.unfollow, input⟩ => TargetHashInput.toJson input
  | ⟨.star, input⟩ => TargetHashInput.toJson input
  | ⟨.unstar, input⟩ => TargetHashInput.toJson input
  | ⟨.resourceTopics, input⟩ => TopicsHashInput.toJson input
  | ⟨.reportResource, input⟩ => ReportHashInput.toJson input
  | ⟨.quarantine, input⟩ => AdminQuarantineHashInput.toJson input
  | ⟨.unquarantine, input⟩ => AdminQuarantineHashInput.toJson input

/-- The secret codes that are hashed before the payload is serialized. -/
def codes (call : RequestCall) : List Text :=
  match call with
  | ⟨.teamJoin, input⟩ => [CodeInput.code input]
  | ⟨.teamOwnerTransferAccept, input⟩ => [CodeInput.code input]
  | _ => []

/-- The byte strings that the hash of a call runs SHA-256 on. -/
def hashedBytes (call : RequestCall) : List Bytes :=
  (match toVec (call.payload ext) with
    | .ok canonical => [call.kind.domain ++ canonical]
    | .error _ => []) ++
    call.codes.map utf8

theorem requestHash_eq (call : RequestCall) :
    call.requestHash ext toVec =
      hashPayload ext toVec call.kind.domain (call.payload ext) := by
  rcases call with ⟨kind, input⟩
  cases kind <;> rfl

end RequestCall

/-!
## Payloads determine the fields
-/

theorem TeamRole.separates : Json.Separates TeamRole.toJson := by
  intro a b h
  cases a <;> cases b <;> simp_all [TeamRole.toJson]

theorem PackMemberTarget.separates : Json.Separates PackMemberTarget.toJson := by
  intro a b h
  cases a
  cases b
  simpa [PackMemberTarget.toJson] using h.fields

theorem PublicSkillManifestEntry.separates :
    Json.Separates PublicSkillManifestEntry.toJson := by
  intro a b h
  cases a <;> cases b <;>
    simpa [PublicSkillManifestEntry.toJson] using Json.Same.fields h

theorem ForkSyncIntent.not_null (intent : ForkSyncIntent) :
    ¬ intent.toJson.Same .null :=
  Json.not_same_null_object

theorem ForkImportIntent.not_null (intent : ForkImportIntent) :
    ¬ intent.toJson.Same .null :=
  Json.not_same_null_object

theorem PublicSkillManifest.separates : Json.Separates PublicSkillManifest.toJson := by
  intro a b h
  cases a
  cases b
  simpa [PublicSkillManifest.toJson, PublicSkillManifestEntry.separates] using h.fields

theorem ForkSyncIntent.separates : Json.Separates ForkSyncIntent.toJson := by
  intro a b h
  cases a
  cases b
  simpa [ForkSyncIntent.toJson] using h.fields

theorem ForkImportIntent.separates : Json.Separates ForkImportIntent.toJson := by
  intro a b h
  cases a
  cases b
  simpa [ForkImportIntent.toJson] using h.fields

theorem CreateInstallationHashInput.separates :
    Json.Separates CreateInstallationHashInput.toJson := by
  intro a b h
  cases a
  cases b
  simpa [CreateInstallationHashInput.toJson] using h.fields

theorem IdentityMutationInput.separates : Json.Separates IdentityMutationInput.toJson := by
  intro a b h
  cases a
  cases b
  simpa [IdentityMutationInput.toJson] using h.fields

theorem SubscriptionHashInput.separates : Json.Separates SubscriptionHashInput.toJson := by
  intro a b h
  cases a
  cases b
  simpa [SubscriptionHashInput.toJson] using h.fields

theorem PrivateRevisionRequestHashInput.separates :
    Json.Separates PrivateRevisionRequestHashInput.toJson := by
  intro a b h
  cases a
  cases b
  simpa [PrivateRevisionRequestHashInput.toJson,
    PublicSkillManifest.separates.iff, ForkSyncIntent.separates,
    ForkSyncIntent.not_null] using h.fields

theorem PrivateSkillImportRequestHashInput.separates :
    Json.Separates PrivateSkillImportRequestHashInput.toJson := by
  intro a b h
  cases a
  cases b
  simpa [PrivateSkillImportRequestHashInput.toJson,
    ForkImportIntent.separates, ForkImportIntent.not_null] using h.fields

theorem PublishSkillInput.separates : Json.Separates PublishSkillInput.toJson := by
  intro a b h
  cases a
  cases b
  simpa [PublishSkillInput.toJson] using h.fields

theorem RestoreSkillInput.separates : Json.Separates RestoreSkillInput.toJson := by
  intro a b h
  cases a
  cases b
  simpa [RestoreSkillInput.toJson] using h.fields

theorem RenameSkillInput.separates : Json.Separates RenameSkillInput.toJson := by
  intro a b h
  cases a
  cases b
  simpa [RenameSkillInput.toJson] using h.fields

theorem LifecycleResourceInput.separates : Json.Separates LifecycleResourceInput.toJson := by
  intro a b h
  cases a
  cases b
  simpa [LifecycleResourceInput.toJson] using h.fields

theorem DeprecateSkillInput.separates : Json.Separates DeprecateSkillInput.toJson := by
  intro a b h
  cases a
  cases b
  simpa [DeprecateSkillInput.toJson] using h.fields

theorem ShareSkillInput.separates : Json.Separates ShareSkillInput.toJson := by
  intro a b h
  cases a
  cases b
  simpa [ShareSkillInput.toJson] using h.fields

theorem ProposalCreateInput.separates : Json.Separates ProposalCreateInput.toJson := by
  intro a b h
  cases a
  cases b
  simpa [ProposalCreateInput.toJson] using h.fields

theorem ProposalAcceptInput.separates : Json.Separates ProposalAcceptInput.toJson := by
  intro a b h
  cases a
  cases b
  simpa [ProposalAcceptInput.toJson] using h.fields

theorem ProposalCloseInput.separates : Json.Separates ProposalCloseInput.toJson := by
  intro a b h
  cases a
  cases b
  simpa [ProposalCloseInput.toJson] using h.fields

theorem PackCreateInput.separates : Json.Separates PackCreateInput.toJson := by
  intro a b h
  cases a
  cases b
  simpa [PackCreateInput.toJson] using h.fields

theorem PackMutationInput.separates : Json.Separates PackMutationInput.toJson := by
  intro a b h
  cases a
  cases b
  simpa [PackMutationInput.toJson, PackMemberTarget.separates] using h.fields

theorem PackPublishInput.separates : Json.Separates PackPublishInput.toJson := by
  intro a b h
  cases a
  cases b
  simpa [PackPublishInput.toJson, PackMemberTarget.separates] using h.fields

theorem PackRenameInput.separates : Json.Separates PackRenameInput.toJson := by
  intro a b h
  cases a
  cases b
  simpa [PackRenameInput.toJson] using h.fields

theorem TeamCreateInput.separates : Json.Separates TeamCreateInput.toJson := by
  intro a b h
  cases a
  cases b
  simpa [TeamCreateInput.toJson] using h.fields

theorem TeamInviteInput.separates : Json.Separates TeamInviteInput.toJson := by
  intro a b h
  cases a
  cases b
  simpa [TeamInviteInput.toJson, TeamRole.separates.iff] using h.fields

theorem TeamInviteRevokeInput.separates : Json.Separates TeamInviteRevokeInput.toJson := by
  intro a b h
  cases a
  cases b
  simpa [TeamInviteRevokeInput.toJson] using h.fields

theorem TeamMemberRoleInput.separates : Json.Separates TeamMemberRoleInput.toJson := by
  intro a b h
  cases a
  cases b
  simpa [TeamMemberRoleInput.toJson, TeamRole.separates.iff] using h.fields

theorem TeamMemberRemoveInput.separates : Json.Separates TeamMemberRemoveInput.toJson := by
  intro a b h
  cases a
  cases b
  simpa [TeamMemberRemoveInput.toJson] using h.fields

theorem TeamSettingsInput.separates : Json.Separates TeamSettingsInput.toJson := by
  intro a b h
  cases a
  cases b
  simpa [TeamSettingsInput.toJson] using h.fields

theorem TeamPackAssignmentInput.separates : Json.Separates TeamPackAssignmentInput.toJson := by
  intro a b h
  cases a
  cases b
  simpa [TeamPackAssignmentInput.toJson] using h.fields

theorem TeamInput.separates : Json.Separates TeamInput.toJson := by
  intro a b h
  cases a
  cases b
  simpa [TeamInput.toJson] using h.fields

theorem TeamOwnerTransferInput.separates : Json.Separates TeamOwnerTransferInput.toJson := by
  intro a b h
  cases a
  cases b
  simpa [TeamOwnerTransferInput.toJson] using h.fields

theorem ResourceTransferInput.separates : Json.Separates ResourceTransferInput.toJson := by
  intro a b h
  cases a
  cases b
  simpa [ResourceTransferInput.toJson] using h.fields

theorem ProfileUpdateHashInput.separates : Json.Separates ProfileUpdateHashInput.toJson := by
  intro a b h
  cases a
  cases b
  simpa [ProfileUpdateHashInput.toJson] using h.fields

theorem TargetHashInput.separates : Json.Separates TargetHashInput.toJson := by
  intro a b h
  cases a
  cases b
  simpa [TargetHashInput.toJson] using h.fields

theorem TopicsHashInput.separates : Json.Separates TopicsHashInput.toJson := by
  intro a b h
  cases a
  cases b
  simpa [TopicsHashInput.toJson] using h.fields

theorem ReportHashInput.separates : Json.Separates ReportHashInput.toJson := by
  intro a b h
  cases a
  cases b
  simpa [ReportHashInput.toJson] using h.fields

theorem AdminQuarantineHashInput.separates : Json.Separates AdminQuarantineHashInput.toJson := by
  intro a b h
  cases a
  cases b
  simpa [AdminQuarantineHashInput.toJson] using h.fields

/-!
## The bytes behind a hash
-/

theorem terminated_inj {α : Type} {zero : α} {p q x y : List α}
    (hp : zero ∉ p) (hq : zero ∉ q)
    (h : p ++ ([zero] ++ x) = q ++ ([zero] ++ y)) : p = q ∧ x = y := by
  induction p generalizing q with
  | nil =>
      cases q with
      | nil => simpa using h
      | cons b q =>
          simp only [List.nil_append, List.cons_append, List.cons.injEq] at h
          exact absurd (by simp [h.1]) hq
  | cons a p ih =>
      cases q with
      | nil =>
          simp only [List.nil_append, List.cons_append, List.cons.injEq] at h
          exact absurd (by simp [h.1]) hp
      | cons b q =>
          simp only [List.cons_append, List.cons.injEq] at h
          simp only [List.mem_cons, not_or] at hp hq
          have hrest := ih hp.2 hq.2 h.2
          exact ⟨by rw [h.1, hrest.1], hrest.2⟩

theorem hashPayload_eq_ok {ext : Externals} {toVec : Json -> Except Text Bytes}
    {domain : Bytes} {payload : Json} {hash : RequestHash} :
    hashPayload ext toVec domain payload = .ok hash <->
      exists canonical, toVec payload = .ok canonical ∧
        hash = ⟨ext.sha256 (domain ++ canonical)⟩ := by
  unfold hashPayload
  cases toVec payload with
  | error message => simp [Except.mapError, bind, Except.bind]
  | ok canonical =>
      simp [Except.mapError, bind, Except.bind, pure, Except.pure, eq_comm]

theorem RequestCall.mem_hashedBytes_of_payload {ext : Externals}
    {toVec : Json -> Except Text Bytes} {call : RequestCall} {canonical : Bytes}
    (h : toVec (call.payload ext) = .ok canonical) :
    call.kind.domain ++ canonical ∈ call.hashedBytes ext toVec := by
  simp [hashedBytes, h]

theorem RequestCall.mem_hashedBytes_of_code {ext : Externals}
    {toVec : Json -> Except Text Bytes} {call : RequestCall} {code : Text}
    (h : code ∈ call.codes) : utf8 code ∈ call.hashedBytes ext toVec :=
  List.mem_append_right _ (List.mem_map_of_mem h)

/-!
## Secret codes

The payload of a call with a secret code has the hash of the code in
hexadecimal digits.
-/

def hexValue (digit : Char) : Nat :=
  if digit.toNat < 58 then digit.toNat - 48 else digit.toNat - 87

theorem hexValue_digits (byte : UInt8) :
    16 * hexValue (hexDigit (byte >>> 4)) + hexValue (hexDigit (byte &&& 15)) =
      byte.toNat := by
  have hdigits : forall n, n < 256 ->
      16 * hexValue (hexDigit (UInt8.ofNat n >>> 4)) +
        hexValue (hexDigit (UInt8.ofNat n &&& 15)) = n := by
    decide +kernel
  have hbyte := hdigits byte.toNat byte.toNat_lt
  rwa [UInt8.ofNat_toNat] at hbyte

theorem hex_injective {a b : Bytes} (h : hex a = hex b) : a = b := by
  induction a generalizing b with
  | nil =>
      cases b with
      | nil => rfl
      | cons y b => simp [hex] at h
  | cons x a ih =>
      cases b with
      | nil => simp [hex] at h
      | cons y b =>
          simp only [hex, List.flatMap_cons, List.cons_append, List.nil_append,
            List.cons.injEq] at h
          have hbyte : x.toNat = y.toNat := by
            rw [← hexValue_digits x, ← hexValue_digits y, h.1, h.2.1]
          rw [UInt8.toNat_inj.mp hbyte, ih h.2.2]

theorem RequestHash.toText_injective {a b : RequestHash}
    (h : a.toText = b.toText) : a = b := by
  have hbytes : a.bytes = b.bytes := Vector.toList_inj.mp (hex_injective h)
  cases a
  cases b
  exact congrArg RequestHash.mk hbytes

theorem codeJson_inj {operation operation' : Text} {hash hash' : RequestHash}
    (h : (codeJson operation hash).Same (codeJson operation' hash')) :
    operation = operation' ∧ hash = hash' := by
  have hfields := h.fields
  simp at hfields
  exact ⟨hfields.1, RequestHash.toText_injective hfields.2⟩

/-!
## A request hash determines the call
-/

namespace MutationKind

def all : List MutationKind :=
  [ .createInstallation, .claim, .login, .recoveryReset, .backup, .deviceRevoke,
    .tokenCreate, .tokenRevoke, .accountDelete, .subscribe, .unsubscribe,
    .privateRevision, .privateSkillImport, .publishSkill, .restoreSkill,
    .renameSkill, .unpublishSkill, .deleteSkill, .deprecateSkill, .historyPrune,
    .shareSkill, .unshareSkill, .proposalCreate, .proposalAccept,
    .proposalReject, .proposalWithdraw, .packCreate, .packAdd, .packRemove,
    .packPublish, .packRename, .packUnpublish, .packDelete, .packSubscribe,
    .packUnsubscribe, .teamCreate, .teamInvite, .teamInviteRevoke, .teamJoin,
    .teamMemberRole, .teamMemberRemove, .teamSettings, .teamPackAssign,
    .teamPackUnassign, .teamLeave, .teamOwnerTransfer, .teamOwnerTransferAccept,
    .teamDelete, .resourceTransfer, .profileUpdate, .follow, .unfollow, .star,
    .unstar, .resourceTopics, .reportResource, .quarantine, .unquarantine ]

theorem mem_all (kind : MutationKind) : kind ∈ all := by
  cases kind <;> decide

/-- The domains are evaluated once: as numbers they are different, and each has
its only zero at the end. -/
theorem domains_checked :
    (all.map fun kind => kind.domain.foldl
        (fun value byte => 256 * value + byte.toNat) 0).Nodup ∧
      forall kind, kind ∈ all ->
        kind.domain = kind.domain.dropLast ++ [0] ∧
          0 ∉ kind.domain.dropLast := by
  decide +kernel

theorem domain_injective {a b : MutationKind} (h : a.domain = b.domain) :
    a = b := by
  apply List.inj_on_of_nodup_map domains_checked.1 (mem_all a) (mem_all b)
  rw [h]

theorem domain_terminated (kind : MutationKind) :
    exists body, kind.domain = body ++ [0] ∧ 0 ∉ body :=
  ⟨_, domains_checked.2 kind (mem_all kind)⟩

/-- The kind and the payload are read back from the bytes that are hashed. -/
theorem domain_append_inj {a b : MutationKind} {x y : Bytes}
    (h : a.domain ++ x = b.domain ++ y) : a = b ∧ x = y := by
  rcases a.domain_terminated with ⟨p, hp, hpzero⟩
  rcases b.domain_terminated with ⟨q, hq, hqzero⟩
  rw [hp, hq, List.append_assoc, List.append_assoc] at h
  have hparts := terminated_inj hpzero hqzero h
  have hdomain : a.domain = b.domain := by
    rw [hp, hq, hparts.1]
  exact ⟨domain_injective hdomain, hparts.2⟩

end MutationKind

variable {ext : Externals} {toVec : Json -> Except Text Bytes}

theorem RequestCall.eq_of_payload {kind : MutationKind}
    {input input' : kind.Input}
    (hcodes : forall code, code ∈ (RequestCall.mk kind input).codes ->
      forall code', code' ∈ (RequestCall.mk kind input').codes ->
      ext.sha256 (utf8 code) = ext.sha256 (utf8 code') -> code = code')
    (h : ((RequestCall.mk kind input).payload ext).Same
      ((RequestCall.mk kind input').payload ext)) :
    input = input' := by
  cases kind with
  | createInstallation =>
      exact CreateInstallationHashInput.separates input input' h
  | claim
  | login
  | recoveryReset
  | backup
  | deviceRevoke
  | tokenCreate
  | tokenRevoke
  | accountDelete =>
      exact IdentityMutationInput.separates input input' h
  | subscribe | unsubscribe =>
      exact SubscriptionHashInput.separates input input' h
  | privateRevision =>
      exact PrivateRevisionRequestHashInput.separates input input' h
  | privateSkillImport =>
      exact PrivateSkillImportRequestHashInput.separates input input' h
  | publishSkill =>
      exact PublishSkillInput.separates input input' h
  | restoreSkill =>
      exact RestoreSkillInput.separates input input' h
  | renameSkill =>
      exact RenameSkillInput.separates input input' h
  | unpublishSkill
  | deleteSkill
  | historyPrune
  | packUnpublish
  | packDelete
  | packSubscribe
  | packUnsubscribe =>
      exact LifecycleResourceInput.separates input input' h
  | deprecateSkill =>
      exact DeprecateSkillInput.separates input input' h
  | shareSkill | unshareSkill =>
      exact ShareSkillInput.separates input input' h
  | proposalCreate =>
      exact ProposalCreateInput.separates input input' h
  | proposalAccept =>
      exact ProposalAcceptInput.separates input input' h
  | proposalReject | proposalWithdraw =>
      exact ProposalCloseInput.separates input input' h
  | packCreate =>
      exact PackCreateInput.separates input input' h
  | packAdd | packRemove =>
      exact PackMutationInput.separates input input' h
  | packPublish =>
      exact PackPublishInput.separates input input' h
  | packRename =>
      exact PackRenameInput.separates input input' h
  | teamCreate =>
      exact TeamCreateInput.separates input input' h
  | teamInvite =>
      exact TeamInviteInput.separates input input' h
  | teamInviteRevoke =>
      exact TeamInviteRevokeInput.separates input input' h
  | teamMemberRole =>
      exact TeamMemberRoleInput.separates input input' h
  | teamMemberRemove =>
      exact TeamMemberRemoveInput.separates input input' h
  | teamSettings =>
      exact TeamSettingsInput.separates input input' h
  | teamPackAssign | teamPackUnassign =>
      exact TeamPackAssignmentInput.separates input input' h
  | teamLeave | teamDelete =>
      exact TeamInput.separates input input' h
  | teamOwnerTransfer =>
      exact TeamOwnerTransferInput.separates input input' h
  | resourceTransfer =>
      exact ResourceTransferInput.separates input input' h
  | profileUpdate =>
      exact ProfileUpdateHashInput.separates input input' h
  | follow | unfollow | star | unstar =>
      exact TargetHashInput.separates input input' h
  | resourceTopics =>
      exact TopicsHashInput.separates input input' h
  | reportResource =>
      exact ReportHashInput.separates input input' h
  | quarantine | unquarantine =>
      exact AdminQuarantineHashInput.separates input input' h
  | teamJoin | teamOwnerTransferAccept =>
      rcases input with ⟨operationId, code⟩
      rcases input' with ⟨operationId', code'⟩
      have hparts := codeJson_inj h
      have hcode := hcodes code (List.mem_singleton_self code) code'
        (List.mem_singleton_self code') (congrArg RequestHash.bytes hparts.2)
      exact CodeInput.mk.injEq .. ▸ ⟨hparts.1, hcode⟩

namespace RequestCall

end RequestCall

/-!
Sharing a skill and taking the share back carry the same fields.
-/

namespace Sample

def shareInput : ShareSkillInput where
  operationId := "op1".toList
  resourceId := "skill1".toList
  recipient := "bob".toList

def shareCanonical : Bytes :=
  utf8 ("\x7b\"operation_id\":\"op1\",\"recipient\":\"bob\"," ++
    "\"resource_id\":\"skill1\"\x7d").toList

def shareFields : List (String × Text) :=
  [ ("operation_id", "op1".toList), ("resource_id", "skill1".toList),
    ("recipient", "bob".toList) ]

/-- The canonicalizer on the fields of the two requests. -/
def canonicalize : Json -> Except Text Bytes
  | .object [(n1, .string v1), (n2, .string v2), (n3, .string v3)] =>
      if [(n1, v1), (n2, v2), (n3, v3)] = shareFields then
        .ok shareCanonical
      else
        .error []
  | _ => .error []

def shareDigest : Digest :=
  digestOfNat
    0xdc52415df4270057399ca54db442fccc1e75362e1045f59c9235de8bf6e9bba9

def unshareDigest : Digest :=
  digestOfNat
    0x800c49a6f19034223df28b288970c41bd3c31088dcf451c8d48783941c42fc3a

def requestExternals : Externals :=
  { Denju.Sample.externals with
    sha256 := fun bytes =>
      if bytes = shareSkillDomain ++ shareCanonical then shareDigest
      else if bytes = unshareSkillDomain ++ shareCanonical then unshareDigest
      else Vector.replicate 32 0 }

def shareCall : RequestCall :=
  ⟨.shareSkill, shareInput⟩

def unshareCall : RequestCall :=
  ⟨.unshareSkill, shareInput⟩

theorem canonicalize_same {payload payload' : Json} {bytes : Bytes}
    (h : canonicalize payload = .ok bytes)
    (h' : canonicalize payload' = .ok bytes) : payload.Same payload' := by
  have hfields : forall json, canonicalize json = .ok bytes ->
      json = .object (shareFields.map fun field =>
        (field.1, .string field.2)) := by
    intro json hjson
    unfold canonicalize at hjson
    split at hjson
    · split at hjson
      · rename_i hshare
        rw [← hshare]
        rfl
      · cases hjson
    · cases hjson
  rw [hfields payload h, hfields payload' h']
  exact Json.Same.refl _

end Sample

end Denju.Wire
