import Denju.Registry.Identities
import Denju.Registry.RecordedPacks

/-!
# Keeping the records

What is left of the operations of a registry either leaves the recorded
requests alone or adds the record of one more.  Only the deletion of a namespace
takes records away, namely those of requests for a team.
-/

namespace Denju

open Lib

/-!
## Transactions that save
-/

namespace Registry

variable {self : Registry} {userId : Uuid} {db db' : Db}

theorem operations_ensured {resourceId user : Uuid} {start : Db}
    (hstart : start = db ∨
      start = db.ensurePrivateWorkspaceForUser resourceId user) :
    start.operations = db.operations := by
  rcases hstart with rfl | rfl
  · rfl
  · exact operations_ensurePrivateWorkspaceForUser

theorem operations_wake {id : Uuid} {generation : Nat} :
    (db.enqueueResourceWake id generation).operations = db.operations := by
  funext table
  cases table <;> rfl

theorem operations_wakeUnless {isTeam : Bool} {id : Uuid} {generation : Nat} :
    (if isTeam then db else db.enqueueResourceWake id generation).operations =
      db.operations := by
  split
  · rfl
  · exact operations_wake

theorem operations_preparePrivateRevision {fresh : BlobId -> Uuid}
    {request : PrivateRevisionRequest}
    {answer : PrivateRevisionPrepareResponse}
    (h : self.preparePrivateRevision fresh userId request db =
      .ok (answer, db')) : db'.operations = db.operations := by
  rcases preparePrivateRevision_eq_ok h with
    ⟨_, _, _, _, _, _, _, _, rfl | ⟨_, hstored⟩⟩
  · rfl
  · rcases storePrivateRevision_eq_ok hstored with
      ⟨_, start, _, _, _, _, hstart, _, _, rfl⟩
    have hsame := operations_ensured hstart
    rw [← hsame]
    funext table
    cases table <;> rfl

theorem operations_preparePrivateSkillImport {newResourceId : Uuid}
    {fresh : BlobId -> Uuid} {request : PrivateSkillImportRequest}
    {answer : PrivateSkillImportPrepareResponse}
    (h : self.preparePrivateSkillImport newResourceId fresh userId request db =
      .ok (answer, db')) : db'.operations = db.operations := by
  rcases preparePrivateSkillImport_eq_ok h with
    ⟨_, _, _, rfl | ⟨_, _, _, rfl⟩⟩
  · rfl
  · funext table
    cases table <;> rfl

theorem operations_moveWorkspace {newConflictId : Uuid}
    {plan : PendingCommit self.ext} {forkSync : Option ValidatedForkSync}
    {isTeam : Bool} {resource : ResourceRow} {workspace : WorkspaceRow}
    {effect : CommitEffect}
    (hnone : workspace.revisionId ≠ plan.operation.expectedHeadRevisionId ->
      db.activeConflict plan.operation.resourceId plan.authority.userId =
        none)
    (h : moveWorkspace newConflictId plan forkSync isTeam resource workspace
      db = .ok effect) : effect.db.operations = db.operations := by
  unfold moveWorkspace at h
  split at h
  · rcases advanceWorkspace_eq_ok h with
      ⟨generation, _, _, _, resourceGeneration, forks, htables⟩
    rw [htables]
    cases isTeam with
    | false =>
        funext table
        cases table <;> rfl
    | true =>
        funext table
        cases table <;> rfl
  · rename_i hstale
    rcases (divergeWorkspace_eq_ok h (hnone hstale)).tables with
      ⟨row, htables, _⟩
    rw [htables]
    funext table
    cases table <;> rfl

theorem operations_writePreparedRevision {newConflictId : Uuid}
    {plan : PendingCommit self.ext} {locked : RevisionOperationRow}
    {isTeam : Bool} {resource : ResourceRow} {workspace : WorkspaceRow}
    {outcome : PrivateRevisionCommitResponse}
    (h : writePreparedRevision newConflictId plan locked isTeam resource
      workspace db = .ok (outcome, db')) : db'.operations = db.operations := by
  rcases bind_eq_ok.mp h with ⟨_, _, h⟩
  rcases bind_eq_ok.mp h with ⟨_, hhead, h⟩
  rcases bind_eq_ok.mp h with ⟨stored, hstored, h⟩
  rcases bind_eq_ok.mp h with ⟨effect, heffect, h⟩
  cases h
  rcases storeCommit_eq_ok hstored with
    ⟨_, _, _, _, _, _, _, _, rfl, _⟩
  have hnone : workspace.revisionId ≠ plan.operation.expectedHeadRevisionId ->
      db.activeConflict plan.operation.resourceId plan.authority.userId =
        none := by
    intro hstale
    cases Db.checkCommitHead_eq_ok hhead with
    | advance hmatches _ _ _ => exact absurd hmatches hstale
    | merge _ hmatches _ _ _ _ _ _ => exact absurd hmatches hstale
    | diverge _ hnone _ _ => exact hnone
  have hmoved := operations_moveWorkspace (by exact hnone) heffect
  rw [operations_wakeUnless]
  funext table
  have hsame := congrFun hmoved table
  cases table <;> exact hsame

theorem operations_writePrivateRevision {newConflictId : Uuid}
    {plan : PendingCommit self.ext} {outcome : PrivateRevisionCommitResponse}
    (h : writePrivateRevision newConflictId plan db = .ok (outcome, db')) :
    db'.operations = db.operations := by
  rcases bind_eq_ok.mp h with ⟨target, _, h⟩
  rcases bind_eq_ok.mp h with ⟨_, _, h⟩
  rcases bind_eq_ok.mp h with ⟨⟨resource, workspace⟩, _, h⟩
  rcases bind_eq_ok.mp h with ⟨_, _, h⟩
  rcases bind_eq_ok.mp h with ⟨locked, _, h⟩
  rcases bind_eq_ok.mp h with ⟨_, _, h⟩
  split at h
  · exact operations_writePreparedRevision h
  · rcases bind_eq_ok.mp h with ⟨stored, _, h⟩
    cases h
    rfl

theorem operations_writePrivateSkillImport {plan : PendingImport self.ext}
    {outcome : PrivateSkillImportResponse}
    (h : writePrivateSkillImport plan db = .ok (outcome, db')) :
    db'.operations = db.operations := by
  rcases bind_eq_ok.mp h with ⟨target, _, h⟩
  rcases bind_eq_ok.mp h with ⟨_, _, h⟩
  rcases bind_eq_ok.mp h with ⟨locked, _, h⟩
  rcases bind_eq_ok.mp h with ⟨_, _, h⟩
  split at h
  · rcases bind_eq_ok.mp h with ⟨_, _, h⟩
    cases h
    rfl
  · rcases bind_eq_ok.mp h with ⟨provenance, _, h⟩
    rcases bind_eq_ok.mp h with ⟨_, _, h⟩
    rcases bind_eq_ok.mp h with ⟨stored, hstored, h⟩
    rcases bind_eq_ok.mp h with ⟨created, hcreated, h⟩
    rcases storeImport_eq_ok hstored with ⟨_, _, _, _, _, rfl⟩
    rcases createImportedSkill_eq_ok hcreated with
      ⟨_, _, _, _, _, rfl, _⟩
    cases h
    funext table
    cases table <;> rfl

/-!
## Restores and renames
-/

theorem recordRestore_records {plan : PendingRestore}
    {outcome : PrivateRevisionResponse} {start : Db}
    (h : recordRestore plan outcome start = .ok db')
    (hstart : start.operations = db.operations) :
    Db.Records db db' .restore
      { userId := plan.authority.userId
        operationId := plan.request.operationId
        requestHash := plan.request.requestHash
        target := plan.request.resourceId
        outcome } := by
  rcases bind_eq_ok.mp h with ⟨rows, hrows, h⟩
  cases h
  exact .ofRecorded hstart hrows (Db.operations_restore start rows)

theorem moveToRestored_records {plan : PendingRestore}
    {target : NamespacePublishAuthority} {resource : ResourceRow}
    {workspace : WorkspaceRow} {outcome : PrivateRevisionResponse}
    (h : self.moveToRestored plan target resource workspace db =
      .ok (outcome, db')) :
    Db.Records db db' .restore
      { userId := plan.authority.userId
        operationId := plan.request.operationId
        requestHash := plan.request.requestHash
        target := plan.request.resourceId
        outcome } := by
  rcases bind_eq_ok.mp h with ⟨revision, _, h⟩
  rcases bind_eq_ok.mp h with ⟨generation, _, h⟩
  rcases bind_eq_ok.mp h with ⟨resourceGeneration, _, h⟩
  rcases bind_eq_ok.mp h with ⟨stored, hstored, h⟩
  rcases bind_eq_ok.mp h with ⟨recorded, hrecorded, h⟩
  rcases storeRestored_frame hstored with ⟨_, _, _, _, _, hframe⟩
  have hsame : stored.operations = db.operations := by
    rw [hframe]
    funext table
    cases table <;> rfl
  cases h
  refine Db.Records.followed
    (recordRestore_records hrecorded (Eq.trans ?_ hsame)) operations_wakeUnless
  split
  · funext table
    cases table <;> rfl
  · funext table
    cases table <;> rfl

theorem writeRestore_records {plan : PendingRestore}
    {outcome : PrivateRevisionResponse}
    (h : self.writeRestore plan db = .ok (outcome, db')) :
    Db.Records db db' .restore
      { userId := plan.authority.userId
        operationId := plan.request.operationId
        requestHash := plan.request.requestHash
        target := plan.request.resourceId
        outcome } := by
  rcases bind_eq_ok.mp h with ⟨target, _, h⟩
  rcases bind_eq_ok.mp h with ⟨⟨resource, workspace⟩, _, h⟩
  rcases bind_eq_ok.mp h with ⟨_, _, h⟩
  rcases bind_eq_ok.mp h with ⟨_, _, h⟩
  rcases bind_eq_ok.mp h with ⟨_, _, h⟩
  rcases bind_eq_ok.mp h with ⟨_, _, h⟩
  refine (moveToRestored_records h).after ?_
  split
  · exact operations_ensurePrivateWorkspaceForUser
  · rfl

theorem finishRename_records {session : Session} {authority : UserAuthority}
    {request : RenameSkillRequest} {namespaceId : Uuid} {oldName : Text}
    {given outcome : RenameSkillResponse} {start : Db}
    (h : finishRename session authority request namespaceId oldName given
      start = .ok (outcome, db'))
    (hstart : start.operations = db.operations) :
    Db.Records db db' .lifecycle
      { userId := authority.userId
        operationId := request.operationId
        requestHash := request.requestHash
        target := request.resourceId
        outcome := .rename outcome } := by
  rcases bind_eq_ok.mp h with ⟨redirected, hredirected, h⟩
  rcases bind_eq_ok.mp h with ⟨recorded, hrecorded, h⟩
  rcases bind_eq_ok.mp h with ⟨consumed, hconsumed, h⟩
  rcases upsertRedirect_eq_ok hredirected with ⟨redirects, hredirects, _⟩
  rcases consumePreparedRename_frame hconsumed with ⟨rows, hrows, _⟩
  have hsame : redirected.operations = start.operations := by
    rw [hredirects]
    funext table
    cases table <;> rfl
  have hrecords := Db.recordLifecycleOperation_records hrecorded
    (hsame.trans hstart)
  cases h
  apply hrecords.followed
  rw [operations_wake, hrows]
  funext table
  cases table <;> rfl

theorem moveToRenamed_records {plan : PendingRename self.ext}
    {resource : ResourceRow} {outcome : RenameSkillResponse}
    (h : moveToRenamed plan resource db = .ok (outcome, db')) :
    Db.Records db db' .lifecycle
      { userId := plan.authority.userId
        operationId := plan.request.operationId
        requestHash := plan.request.requestHash
        target := plan.request.resourceId
        outcome := .rename outcome } := by
  rcases bind_eq_ok.mp h with ⟨stored, hstored, h⟩
  rcases bind_eq_ok.mp h with ⟨generation, _, h⟩
  rcases bind_eq_ok.mp h with ⟨⟨version, released⟩, hreleased, h⟩
  rcases storeRenamed_frame hstored with
    ⟨_, _, _, _, _, _, _, _, _, hframe⟩
  rcases (releaseIfPublic_eq_ok hreleased).2 with ⟨releases, hreleases, _⟩
  apply finishRename_records h
  rw [hreleases, hframe]
  funext table
  cases table <;> rfl

theorem moveTeamRename_records {plan : PendingTeamRename}
    {outcome : RenameSkillResponse}
    (h : moveTeamRename self plan db = .ok (outcome, db')) :
    Db.Records db db' .lifecycle
      { userId := plan.authority.userId
        operationId := plan.request.operationId
        requestHash := plan.request.requestHash
        target := plan.request.resourceId
        outcome := .rename outcome } := by
  rcases bind_eq_ok.mp h with ⟨⟨seen, stored⟩, hstored, h⟩
  rcases bind_eq_ok.mp h with ⟨moved, hmoved, h⟩
  rcases bind_eq_ok.mp h with ⟨⟨version, released⟩, hreleased, h⟩
  rcases bind_eq_ok.mp h with ⟨generation, _, h⟩
  rcases persistContents_frame hstored with
    ⟨_, _, _, _, _, _, _, _, _, _, hframe⟩
  rcases moveTeamWorkspaces_frame hmoved with ⟨workspaces, hworkspaces, _⟩
  rcases (releaseTeamRename_eq_ok hreleased).2 with ⟨releases, hreleases, _⟩
  dsimp only at hframe
  apply finishRename_records h
  rw [hreleases, hworkspaces, hframe]
  funext table
  cases table <;> rfl

/-- The caller of a rename, and what is asked. -/
def RenamePlan.request {ext : Externals} :
    RenamePlan ext -> UserAuthority × RenameSkillRequest
  | .personal plan => (plan.authority, plan.request)
  | .team plan => (plan.authority, plan.request)

theorem writeRename_records {plan : RenamePlan self.ext}
    {outcome : RenameSkillResponse}
    (h : self.writeRename plan db = .ok (outcome, db')) :
    Db.Records db db' .lifecycle
      { userId := plan.request.1.userId
        operationId := plan.request.2.operationId
        requestHash := plan.request.2.requestHash
        target := plan.request.2.resourceId
        outcome := .rename outcome } := by
  cases plan with
  | personal plan =>
      rcases bind_eq_ok.mp h with ⟨⟨resource, _⟩, _, h⟩
      rcases bind_eq_ok.mp h with ⟨_, _, h⟩
      rcases bind_eq_ok.mp h with ⟨_, _, h⟩
      rcases bind_eq_ok.mp h with ⟨_, _, h⟩
      rcases bind_eq_ok.mp h with ⟨_, _, h⟩
      exact moveToRenamed_records h
  | team plan =>
      rcases bind_eq_ok.mp h with ⟨target, _, h⟩
      rcases bind_eq_ok.mp h with ⟨_, _, h⟩
      rcases bind_eq_ok.mp h with ⟨locked, _, h⟩
      rcases bind_eq_ok.mp h with ⟨_, _, h⟩
      rcases bind_eq_ok.mp h with ⟨_, _, h⟩
      rcases bind_eq_ok.mp h with ⟨_, _, h⟩
      rcases bind_eq_ok.mp h with ⟨_, _, h⟩
      exact moveTeamRename_records h

/-!
## Accounts and teams
-/

theorem operations_claimIdentity {namespaceId user sessionId : Uuid}
    {userAuthor device : AuthorPrincipalId} {installation : Uuid}
    {username : Text} {answer : IdentitySessionResponse}
    (h : claimIdentity namespaceId user sessionId userAuthor device
      installation username db = .ok (answer, db')) :
    db'.operations = db.operations := by
  rcases bind_eq_ok.mp h with ⟨_, _, h⟩
  rcases bind_eq_ok.mp h with ⟨_, _, h⟩
  rcases bind_eq_ok.mp h with ⟨_, _, h⟩
  rcases bind_eq_ok.mp h with ⟨spaced, _, h⟩
  rcases bind_eq_ok.mp h with ⟨peopled, _, h⟩
  rcases bind_eq_ok.mp h with ⟨linked, _, h⟩
  cases h
  funext table
  cases table <;> rfl

theorem operations_login {sessionId : Uuid} {device : AuthorPrincipalId}
    {installation : Uuid} {username : Text} {answer : IdentitySessionResponse}
    (h : login sessionId device installation username db =
      .ok (answer, db')) : db'.operations = db.operations := by
  rcases bind_eq_ok.mp h with ⟨_, _, h⟩
  rcases bind_eq_ok.mp h with ⟨_, _, h⟩
  rcases bind_eq_ok.mp h with ⟨linked, _, h⟩
  rcases bind_eq_ok.mp h with ⟨moved, _, h⟩
  cases h
  funext table
  cases table <;> rfl

theorem operations_provisionTeamWorkspaces (user : Uuid) :
    (db.provisionTeamWorkspaces user).operations = db.operations := by
  have hfold : forall (ids : List Uuid) (start : Db),
      start.operations = db.operations ->
        (ids.foldl (fun db id => db.ensurePrivateWorkspaceForUser id user)
          start).operations = db.operations := by
    intro ids
    induction ids with
    | nil => exact fun _ hstart => hstart
    | cons id rest ih =>
        intro start hstart
        exact ih _ (operations_ensurePrivateWorkspaceForUser.trans hstart)
  exact hfold _ db rfl

theorem operations_createTeam {namespaceId : Uuid} {slug : Text}
    {answer : TeamMutationResponse}
    (h : createTeam namespaceId userId slug db = .ok (answer, db')) :
    db'.operations = db.operations := by
  rcases bind_eq_ok.mp h with ⟨_, _, h⟩
  rcases bind_eq_ok.mp h with ⟨_, _, h⟩
  rcases bind_eq_ok.mp h with ⟨spaced, _, h⟩
  rcases bind_eq_ok.mp h with ⟨teamed, _, h⟩
  rcases bind_eq_ok.mp h with ⟨joined, _, h⟩
  cases h
  funext table
  cases table <;> rfl

theorem operations_joinTeam {invitedTo : Uuid} {role : TeamRole}
    {answer : TeamMutationResponse}
    (h : joinTeam userId invitedTo role db = .ok (answer, db')) :
    db'.operations = db.operations := by
  rcases bind_eq_ok.mp h with ⟨_, _, h⟩
  rcases bind_eq_ok.mp h with ⟨_, _, h⟩
  rcases bind_eq_ok.mp h with ⟨_, _, h⟩
  rcases bind_eq_ok.mp h with ⟨_, _, h⟩
  rcases bind_eq_ok.mp h with ⟨joined, _, h⟩
  cases h
  funext table
  cases table <;> rfl

theorem operations_removeTeamWorkspacesForUser {actor team member : Uuid}
    (h : db.removeTeamWorkspacesForUser actor team member = .ok db') :
    db'.operations = db.operations := by
  rcases bind_eq_ok.mp h with ⟨_, _, h⟩
  cases h
  funext table
  cases table <;> rfl

theorem operations_changeTeamMemberRole {slug member : Text}
    {role : TeamRole} {answer : TeamMutationResponse}
    (h : changeTeamMemberRole userId slug member role db =
      .ok (answer, db')) : db'.operations = db.operations := by
  rcases bind_eq_ok.mp h with ⟨_, _, h⟩
  rcases bind_eq_ok.mp h with ⟨_, _, h⟩
  rcases bind_eq_ok.mp h with ⟨⟨_, _, _⟩, _, h⟩
  rcases bind_eq_ok.mp h with ⟨_, _, h⟩
  rcases bind_eq_ok.mp h with ⟨_, _, h⟩
  rcases bind_eq_ok.mp h with ⟨_, _, h⟩
  rcases bind_eq_ok.mp h with ⟨_, _, h⟩
  dsimp only at h
  split at h
  · split at h
    · rcases bind_eq_ok.mp h with ⟨removed, hremoved, h⟩
      cases h
      rw [operations_removeTeamWorkspacesForUser hremoved]
      funext table
      cases table <;> rfl
    · cases h
      funext table
      cases table <;> rfl
  · cases h
    rfl

theorem operations_updateTeamSettings {slug : Text}
    {membersCanPublish : Bool} {answer : TeamMutationResponse}
    (h : updateTeamSettings userId slug membersCanPublish db =
      .ok (answer, db')) : db'.operations = db.operations := by
  rcases bind_eq_ok.mp h with ⟨_, _, h⟩
  rcases bind_eq_ok.mp h with ⟨⟨team, _, _⟩, _, h⟩
  rcases bind_eq_ok.mp h with ⟨_, _, h⟩
  have hset : ({ db with
      directory := db.directory.setMembersCanPublish team
        membersCanPublish } : Db).operations = db.operations := by
    funext table
    cases table <;> rfl
  dsimp only at h
  split at h
  · split at h
    · cases h
      exact hset
    · rcases bind_eq_ok.mp h with ⟨removed, hremoved, h⟩
      cases h
      refine foldlM_invariant
        (P := fun next : Db => next.operations = db.operations)
        ?_ hset hremoved
      intro start member next hstart hnext
      exact (operations_removeTeamWorkspacesForUser hnext).trans hstart
  · cases h
    rfl

theorem operations_endMembership {actor team member : Uuid}
    (h : db.endMembership actor team member = .ok db') :
    db'.operations = db.operations := by
  rw [Db.endMembership_eq_ok h]
  funext table
  cases table <;> rfl

theorem removeTeamMember_keepsRecords {request : TeamMemberRemoveRequest}
    {answer : TeamMutationResponse}
    (h : self.removeTeamMember userId request db = .ok (answer, db')) :
    Db.KeepsRecords db db' := by
  rcases bind_eq_ok.mp h with ⟨_, _, h⟩
  rcases bind_eq_ok.mp h with ⟨_, _, h⟩
  rcases bind_eq_ok.mp h with ⟨_, _, h⟩
  split at h
  · cases h
    exact .refl _
  · rcases bind_eq_ok.mp h with ⟨⟨_, _, _⟩, _, h⟩
    rcases bind_eq_ok.mp h with ⟨_, _, h⟩
    rcases bind_eq_ok.mp h with ⟨_, _, h⟩
    rcases bind_eq_ok.mp h with ⟨_, _, h⟩
    rcases bind_eq_ok.mp h with ⟨_, _, h⟩
    rcases bind_eq_ok.mp h with ⟨ended, hended, h⟩
    rcases bind_eq_ok.mp h with ⟨recorded, hrecorded, h⟩
    cases h
    exact (Db.recordTeamOperation_records hrecorded
      (operations_endMembership hended)).keeps

theorem leaveTeam_keepsRecords {request : TeamLeaveRequest}
    {answer : TeamLeaveResponse}
    (h : self.leaveTeam userId request db = .ok (answer, db')) :
    Db.KeepsRecords db db' := by
  rcases bind_eq_ok.mp h with ⟨_, _, h⟩
  rcases bind_eq_ok.mp h with ⟨_, _, h⟩
  rcases bind_eq_ok.mp h with ⟨_, _, h⟩
  split at h
  · cases h
    exact .refl _
  · rcases bind_eq_ok.mp h with ⟨⟨_, _, _⟩, _, h⟩
    rcases bind_eq_ok.mp h with ⟨_, _, h⟩
    rcases bind_eq_ok.mp h with ⟨ended, hended, h⟩
    rcases bind_eq_ok.mp h with ⟨recorded, hrecorded, h⟩
    cases h
    exact (Db.recordTeamOperation_records hrecorded
      (operations_endMembership hended)).keeps

theorem operations_tombstoneOwnedResources {user namespaceId : Uuid}
    {owner : Text}
    (h : db.tombstoneOwnedResourcesForAccountDelete user namespaceId owner =
      .ok db') : db'.operations = db.operations := by
  refine foldlM_invariant
    (P := fun next : Db => next.operations = db.operations) ?_ rfl h
  intro start row next hstart hnext
  rcases bind_eq_ok.mp hnext with ⟨generation, _, hnext⟩
  cases hnext
  rw [← hstart]
  funext table
  cases table <;> rfl

/-- The records of requests for a namespace that is deleted are those of its
team. -/
theorem deleteNamespace_keeps {id : Uuid} {table : RequestTable}
    (htable : table ≠ .team) (h : db.deleteNamespace id = .ok db') :
    db'.operations table = db.operations table := by
  rcases bind_eq_ok.mp h with ⟨_, _, h⟩
  cases h
  cases table with
  | team => exact absurd rfl htable
  | _ => rfl

theorem deleteTeam_keeps {slug : Text} {answer : TeamDeleteResponse}
    {table : RequestTable} (htable : table ≠ .team)
    (h : deleteTeam userId slug db = .ok (answer, db')) :
    db'.operations table = db.operations table := by
  rcases bind_eq_ok.mp h with ⟨_, _, h⟩
  rcases bind_eq_ok.mp h with ⟨⟨team, _, _⟩, _, h⟩
  rcases bind_eq_ok.mp h with ⟨_, _, h⟩
  rcases bind_eq_ok.mp h with ⟨buried, hburied, h⟩
  rcases bind_eq_ok.mp h with ⟨cleared, hcleared, h⟩
  cases h
  rw [deleteNamespace_keeps htable hcleared,
    operations_tombstoneOwnedResources hburied]
  cases table <;> rfl

theorem deleteAccount_keeps {answer : AccountDeleteResponse}
    {table : RequestTable} (htable : table ≠ .team)
    (h : deleteAccount userId db = .ok (answer, db')) :
    db'.operations table = db.operations table := by
  rcases bind_eq_ok.mp h with ⟨_, _, h⟩
  split at h
  · cases h
  · rcases bind_eq_ok.mp h with ⟨left, hleft, h⟩
    rcases bind_eq_ok.mp h with ⟨buried, hburied, h⟩
    rcases bind_eq_ok.mp h with ⟨cleared, hcleared, h⟩
    cases h
    have hgone : left.operations = db.operations := by
      refine foldlM_invariant
        (P := fun next : Db => next.operations = db.operations) ?_ rfl hleft
      intro start team next hstart hnext
      exact (operations_removeTeamWorkspacesForUser hnext).trans hstart
    have hburied := operations_tombstoneOwnedResources hburied
    rw [deleteNamespace_keeps htable hcleared, ← hgone]
    have hsame := congrFun hburied table
    cases table <;> exact hsame

theorem operations_setResourceTopics {resourceId : Uuid}
    {expectedGeneration : UInt64} {answer : Nat}
    (h : setResourceTopics userId resourceId expectedGeneration db =
      .ok (answer, db')) : db'.operations = db.operations := by
  rcases bind_eq_ok.mp h with ⟨_, _, h⟩
  rcases bind_eq_ok.mp h with ⟨_, _, h⟩
  rcases bind_eq_ok.mp h with ⟨_, _, h⟩
  rcases bind_eq_ok.mp h with ⟨_, _, h⟩
  rcases bind_eq_ok.mp h with ⟨generation, _, h⟩
  cases h
  funext table
  cases table <;> rfl

end Registry
end Denju
