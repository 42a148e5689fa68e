import Denju.Registry.DraftAuthority
import Denju.Registry.TeamRuns

/-!
# Interleaved drafts and changes of members

Publishers of a team prepare saves, restore revisions and accept proposals
while the owner changes who may publish.  Every draft belongs to a publisher as
long as a publisher who gets a workspace stays one until the transaction
commits, and nobody gets a workspace behind a deletion that has begun.
-/

namespace Denju

open Lib

/-- The requests that create or delete workspaces of a team. -/
inductive DraftRequest where
  | memberRole (userId : Uuid) (operationId : OperationId)
      (requestHash : RequestHash) (slug member : Text) (role : TeamRole)
  | memberRemove (userId : Uuid) (operationId : OperationId)
      (requestHash : RequestHash) (slug member : Text)
  | settings (userId : Uuid) (operationId : OperationId)
      (requestHash : RequestHash) (slug : Text) (membersCanPublish : Bool)
  | leave (userId : Uuid) (operationId : OperationId)
      (requestHash : RequestHash) (slug : Text)
  | prepare (authority : UserAuthority) (resourceId : Uuid)
  | restore (authority : UserAuthority) (resourceId : Uuid)
      (expectedGeneration : Generation) (target : RevisionId)
      (metadata : SkillMetadata) (newRevision : RevisionId -> RevisionId)
  | accept (limits : Limits) (authority : UserAuthority) (proposalId : Uuid)
      (expected : RevisionId)
      (proposalGeneration sourceGeneration targetGeneration : Generation)

namespace DraftRequest

/-- The requests on content answer with what they have done elsewhere. -/
def script : DraftRequest -> Transaction (Option TeamOutcome)
  | memberRole userId operationId requestHash slug member role => do
      let outcome <- Transaction.changeTeamMemberRole userId operationId
        requestHash slug member role
      return some outcome
  | memberRemove userId operationId requestHash slug member => do
      let outcome <- Transaction.removeTeamMember userId operationId
        requestHash slug member
      return some outcome
  | settings userId operationId requestHash slug membersCanPublish => do
      let outcome <- Transaction.updateTeamSettings userId operationId
        requestHash slug membersCanPublish
      return some outcome
  | leave userId operationId requestHash slug => do
      let outcome <- Transaction.leaveTeam userId operationId requestHash slug
      return some outcome
  | prepare authority resourceId => do
      Transaction.preparePrivateRevision authority resourceId
      return none
  | restore authority resourceId expectedGeneration target metadata
      newRevision => do
      Transaction.restoreSkill authority resourceId expectedGeneration target
        metadata newRevision
      return none
  | accept limits authority proposalId expected proposalGeneration
      sourceGeneration targetGeneration => do
      Transaction.acceptProposal limits authority proposalId expected
        proposalGeneration sourceGeneration targetGeneration
      return none

def Runs (script : Transaction (Option TeamOutcome)) : Prop :=
  exists request : DraftRequest, script = request.script

theorem runs_verified {script : Transaction (Option TeamOutcome)}
    (h : Runs script) :
    draftContract.Verified script .empty [] fun _ _ _ => True := by
  have hanswer : forall {α : Type} {body : Transaction α}
      {answer : α -> Option TeamOutcome},
      draftContract.Triple (fun rows seen => seen = rows) body
        (fun _ rows seen => seen = rows) ->
      draftContract.Verified (body >>= fun value => pure (answer value))
        .empty [] fun _ _ _ => True := by
    intro α body answer hbody
    have hscript : draftContract.Triple (fun rows seen => seen = rows)
        (body >>= fun value => pure (answer value))
        (fun _ rows seen => seen = rows) :=
      Contract.Triple.bind hbody fun value =>
        Contract.Triple.pure (answer value) fun _ _ _ hpre => hpre
    exact hscript.verified
  rcases h with ⟨request, rfl⟩
  cases request with
  | memberRole =>
      exact hanswer Transaction.authorized_changeTeamMemberRole
  | memberRemove => exact hanswer Transaction.authorized_removeTeamMember
  | settings => exact hanswer Transaction.authorized_updateTeamSettings
  | leave => exact hanswer Transaction.authorized_leaveTeam
  | prepare => exact hanswer Transaction.authorized_preparePrivateRevision
  | restore => exact hanswer Transaction.authorized_restoreSkill
  | accept => exact hanswer Transaction.authorized_acceptProposal

end DraftRequest

abbrev DraftSchedule (τ : Type) :=
  Schedule τ TableRow Note ApiError (Option TeamOutcome)

abbrev DraftTurn (τ : Type) :=
  Turn τ TableRow Note ApiError (Option TeamOutcome)

/-- A publisher who gets a workspace stays a publisher, and nobody gets a
workspace, or becomes a member, behind a deletion that has begun. -/
def DraftSchedule.AuthorityLasts {τ : Type} [DecidableEq τ]
    (schedule : DraftSchedule τ) (turn : DraftTurn τ)
    (schedule' : DraftSchedule τ) : Prop :=
  Schedule.Respecting draftContract DraftRequest.Runs schedule turn schedule'

namespace Sample

def crewSkill : Uuid :=
  uuid 30

def crewRevision : RevisionId :=
  ⟨digestOfNat 31⟩

def crewSnapshot : StoredSnapshot where
  manifest := documentManifest
  snapshotKey := "snapshot".toList
  snapshotSha256 := ⟨digestOfNat 32⟩
  snapshotSize := 102

def crewResource : ResourceRow where
  id := crewSkill
  ownerNamespaceId := crew
  slug := "a".toList
  kind := .skill
  visibility := .priv
  metadata := ⟨"d".toList, none, none⟩
  generation := .one
  latestReleaseVersion := some .one
  deprecated := false
  deprecationReplacement := none
  deleted := false

def crewRelease : ReleaseRow where
  resourceId := crewSkill
  version := .one
  revisionId := crewRevision
  rootTreeId := documentRoot
  snapshot := crewSnapshot
  authorPrincipalId := amy.authorPrincipalId
  message := none
  tags := []

def maintaining : TableView :=
  View.ofList [
    ⟨.namespaceRow crew, ⟨crew, "crew".toList, .team⟩⟩,
    ⟨.namespaceRow bob.namespaceId, ⟨bob.namespaceId, "bob".toList, .user⟩⟩,
    ⟨.account bob.id, ⟨some bob.namespaceId, false⟩⟩,
    ⟨.team crew, ⟨crew, false⟩⟩,
    ⟨.membership crew amy.id, .owner⟩,
    ⟨.membership crew bob.id, .maintainer⟩,
    ⟨.resource crewSkill, crewResource⟩,
    ⟨.release crewSkill .one, crewRelease⟩,
    ⟨.snapshot crewSkill crewRevision, crewSnapshot⟩]

def bobAuthority : UserAuthority where
  userId := bob.id
  namespaceId := bob.namespaceId
  namespaceSlug := "bob".toList
  authorPrincipalId := bob.authorPrincipalId

def preparation : DraftRequest :=
  .prepare bobAuthority crewSkill

def demotion : DraftRequest :=
  .memberRole amy.id (operationId 1) (digestOfNat 1) "crew".toList
    "bob".toList .member

def preparing : List (DraftTurn Bool) :=
  .start true preparation.script :: List.replicate 11 (.step true)

def demoting : List (DraftTurn Bool) :=
  .start true preparation.script :: List.replicate 4 (.step true) ++
    .start false demotion.script :: List.replicate 12 (.step false) ++
    List.replicate 7 (.step true)

/-- A check on the committed rows that is enough for a fact about the authority
of publishers. -/
def draftCheck (note : Note) (rows : Rows TableRow) : Bool :=
  match note with
  | .mayPublish team user =>
      match rows (.membership team user), rows (.team team) with
      | some role, some settings =>
          Directory.roleCanPublish role settings.membersCanPublish
      | _, _ => false
  | .cleared _ _ _ => false
  | .membersCleared _ _ => false
  | _ => true

theorem draftContract_holds_of_check {note : Note} {rows : Rows TableRow}
    (h : draftCheck note rows = true) : draftContract.holds note rows := by
  cases note with
  | mayPublish team user =>
      simp only [draftCheck] at h
      split at h
      · rename_i role settings hrole hsettings
        exact ⟨role, settings, hrole, hsettings, h⟩
      · cases h
  | cleared => cases h
  | membersCleared => cases h
  | _ => trivial

theorem maintaining_draftsAuthorized : DraftsAuthorized maintaining.rows := by
  intro resource user row hworkspace
  rcases Option.isSome_iff_exists.mp hworkspace with ⟨workspace, hrow⟩
  have hentry := View.mem_of_rows_ofList hrow
  simp at hentry

end Sample

end Denju
