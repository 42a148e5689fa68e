import Denju.Registry.Locators
import Denju.Registry.SoundAccounts

/-!
# Catalogs over runs

A registry starts without users and stays sound, whatever happens to it.  So a
catalog never fails and lists what its subscriber should get, and every
workspace and every release leads to content that is stored.
-/

namespace Denju

open Lib

/-!
## Operations leave the directory alone
-/

namespace Service

variable {registry : Registry} {service : Service registry}

theorem settle_directory {α : Type} {result : Except ApiError (α × Db)}
    (hok : forall value db, result = .ok (value, db) ->
      db.directory = service.db.directory) :
    (service.settle result).db.directory = service.db.directory :=
  settle_of (P := fun next => next.db.directory = service.db.directory) rfl hok

theorem mutate_directory (mutation : Mutation) :
    (service.mutate mutation).db.directory = service.db.directory := by
  cases mutation with
  | activity activity => exact act_directory activity
  | deleteSkill =>
      refine settle_directory fun _ _ h => ?_
      rcases Registry.deleteSkill_eq_ok h with rfl | ⟨_, hw⟩
      · rfl
      · rcases hw.tables with ⟨_, _, _, _, _, rfl⟩
        rfl
  | deprecateSkill =>
      refine settle_directory fun _ _ h => ?_
      rcases Registry.deprecateSkill_eq_ok h with rfl | ⟨_, _, rfl⟩
      · rfl
      · rfl
  | share =>
      refine settle_directory fun _ _ h => ?_
      rcases Registry.mutatePrivateShare_eq_ok h with ⟨_, _, _, _, rfl⟩
      rfl
  | quarantine =>
      refine settle_directory fun _ _ h => ?_
      rcases Registry.mutateQuarantine_eq_ok h with
        ⟨_, _, _, _, rfl | ⟨_, _, rfl⟩⟩
      · rfl
      · rfl
  | createPack =>
      refine settle_directory fun _ _ h => ?_
      rcases Registry.createPack_eq_ok h with rfl | ⟨_, _, _, _, _, _, hnew⟩
      · rfl
      · rcases hnew.tables with ⟨_, _, _, _, _, _, rfl⟩
        rfl
  | mutatePack =>
      exact settle_directory fun _ _ h =>
        (Registry.mutatePack_eq_ok h).sameNames.directory
  | publishPack =>
      exact settle_directory fun _ _ h =>
        (Registry.publishPack_eq_ok h).sameNames.directory
  | renamePack =>
      refine settle_directory fun _ _ h => ?_
      rcases Registry.renamePack_eq_ok h with hchange | ⟨_, _, _, _, _, _, hw⟩
      · exact hchange.sameNames.directory
      · rcases hw.tables with ⟨_, _, _, _, rfl⟩
        rfl
  | unpublishPack =>
      exact settle_directory fun _ _ h =>
        (Registry.unpublishPack_eq_ok h).sameNames.directory
  | deletePack =>
      refine settle_directory fun _ _ h => ?_
      rcases Registry.deletePack_eq_ok h with hchange | ⟨_, _, _, _, hw⟩
      · exact hchange.sameNames.directory
      · rcases hw with ⟨_, _, _, _, _, _, _, _, _, _, _, rfl⟩
        rfl
  | transferPack =>
      refine settle_directory fun _ _ h => ?_
      rcases Registry.transferPack_eq_ok h with rfl | ⟨_, _, _, _, _, hw⟩
      · rfl
      · rcases hw.tables with ⟨_, _, _, _, _, rfl⟩
        rfl
  | subscribe =>
      exact settle_directory fun _ _ h =>
        (subscribed_sameNames (Registry.mutateSubscription_eq_ok h)).directory
  | subscribePack =>
      exact settle_directory fun _ _ h =>
        (subscribed_sameNames
          (Registry.mutatePackSubscription_eq_ok h)).directory
  | assignPack =>
      refine settle_directory fun _ _ h => ?_
      rcases Registry.mutateTeamPackAssignment_eq_ok h with ⟨_, _, rfl⟩
      rfl

end Service

/-!
## Users that there are after a change of the accounts
-/

namespace Db

/-- Nobody is new. -/
def KeepsUsers (db db' : Db) : Prop :=
  forall user, user ∈ db'.directory.users -> user ∈ db.directory.users

variable {db db' db'' : Db}

theorem KeepsUsers.ofSame (h : db'.directory.users = db.directory.users) :
    KeepsUsers db db' := by
  intro user huser
  rw [h] at huser
  exact huser

theorem KeepsUsers.trans (h : KeepsUsers db db') (h' : KeepsUsers db' db'') :
    KeepsUsers db db'' :=
  fun user huser => h user (h' user huser)

theorem KeepsUsers.fold {α : Type} {f : Db -> α -> Except ApiError Db}
    {xs : List α}
    (hstep : forall start x next, f start x = .ok next ->
      next.directory.users = start.directory.users)
    (h : xs.foldlM f db = .ok db') : KeepsUsers db db' := by
  apply KeepsUsers.ofSame
  refine foldlM_invariant
    (P := fun next => next.directory.users = db.directory.users) ?_ rfl h
  intro start x next hstart hnext
  rw [hstep start x next hnext, hstart]

theorem removeTeamWorkspacesForUser_users {actor team member : Uuid}
    (h : db.removeTeamWorkspacesForUser actor team member = .ok db') :
    db'.directory.users = db.directory.users := by
  rcases bind_eq_ok.mp h with ⟨_, _, h⟩
  cases h
  rfl

theorem tombstoneOwned_users {user : Uuid} {owner : Text} {row : ResourceRow}
    (h : tombstoneOwned user owner db row = .ok db') :
    db'.directory.users = db.directory.users := by
  rcases bind_eq_ok.mp h with ⟨_, _, h⟩
  cases h
  rfl

theorem tombstoneOwnedResources_users {user namespaceId : Uuid}
    {owner : Text}
    (h : db.tombstoneOwnedResourcesForAccountDelete user namespaceId owner =
      .ok db') : KeepsUsers db db' :=
  .fold (fun _ _ _ hnext => tombstoneOwned_users hnext) h

theorem deleteNamespace_users {id : Uuid}
    (h : db.deleteNamespace id = .ok db') : KeepsUsers db db' := by
  rcases bind_eq_ok.mp h with ⟨_, _, h⟩
  cases h
  exact fun user huser => (mem_deleteWhere.mp huser).1

end Db

namespace Registry

open Db

variable {db db' : Db} {registry : Registry}

theorem claimIdentity_users {namespaceId userId sessionId : Uuid}
    {userAuthor device : AuthorPrincipalId} {installation : Uuid}
    {username : Text} {answer : IdentitySessionResponse}
    (h : claimIdentity namespaceId userId sessionId userAuthor device
      installation username db = .ok (answer, db')) (user : User)
    (huser : user ∈ db'.directory.users) :
    user ∈ db.directory.users ∨ user.namespaceId = namespaceId := by
  rcases bind_eq_ok.mp h with ⟨_, _, h⟩
  rcases bind_eq_ok.mp h with ⟨_, _, h⟩
  rcases bind_eq_ok.mp h with ⟨_, _, h⟩
  rcases bind_eq_ok.mp h with ⟨spaced, hspaced, h⟩
  rcases bind_eq_ok.mp h with ⟨peopled, hpeopled, h⟩
  rcases bind_eq_ok.mp h with ⟨linked, hlinked, h⟩
  cases h
  have hu := (Directory.insertNamespace_eq_ok hspaced).2.1
  have hu' := (Directory.insertUser_eq_ok hpeopled).2.1
  have hu'' := (Directory.linkInstallationToUser_eq_ok hlinked).2.1
  replace huser : user ∈ linked.users := huser
  rw [hu'', hu', hu] at huser
  rcases List.mem_append.mp huser with hold | hnew
  · exact .inl hold
  · rw [List.mem_singleton.mp hnew]
    exact .inr rfl

theorem login_users {sessionId : Uuid} {device : AuthorPrincipalId}
    {installation : Uuid} {username : Text}
    {answer : IdentitySessionResponse}
    (h : login sessionId device installation username db =
      .ok (answer, db')) : KeepsUsers db db' := by
  rcases bind_eq_ok.mp h with ⟨_, _, h⟩
  rcases bind_eq_ok.mp h with ⟨_, _, h⟩
  rcases bind_eq_ok.mp h with ⟨linked, hlinked, h⟩
  rcases bind_eq_ok.mp h with ⟨moved, hmoved, h⟩
  cases h
  have hu := (Directory.linkInstallationToUser_eq_ok hlinked).2.1
  have hu' := (Directory.linkInstallationAuthorToUser_eq_ok hmoved).2.1
  exact .ofSame (hu'.trans hu)

theorem provisionTeamWorkspaces_directory (user : Uuid) :
    (db.provisionTeamWorkspaces user).directory = db.directory := by
  have hfold : forall (ids : List Uuid) (start : Db),
      start.directory = db.directory ->
        (ids.foldl (fun db id => db.ensurePrivateWorkspaceForUser id user)
          start).directory = db.directory := by
    intro ids
    induction ids with
    | nil => exact fun _ hstart => hstart
    | cons id rest ih =>
        intro start hstart
        exact ih _ ((ensurePrivateWorkspaceForUser_tables id user).1.trans
          hstart)
  exact hfold _ db rfl

theorem createTeam_users {namespaceId userId : Uuid} {slug : Text}
    {answer : TeamMutationResponse}
    (h : createTeam namespaceId userId slug db = .ok (answer, db')) :
    KeepsUsers db db' := by
  rcases bind_eq_ok.mp h with ⟨_, _, h⟩
  rcases bind_eq_ok.mp h with ⟨_, _, h⟩
  rcases bind_eq_ok.mp h with ⟨spaced, hspaced, h⟩
  rcases bind_eq_ok.mp h with ⟨teamed, hteamed, h⟩
  rcases bind_eq_ok.mp h with ⟨joined, hjoined, h⟩
  cases h
  have hu := (Directory.insertNamespace_eq_ok hspaced).2.1
  have hu' := (Directory.insertTeam_eq_ok hteamed).2.1
  have hu'' := (Directory.insertMembership_eq_ok hjoined).2.1
  exact .ofSame (hu''.trans (hu'.trans hu))

theorem joinTeam_users {userId invitedTo : Uuid} {role : TeamRole}
    {answer : TeamMutationResponse}
    (h : joinTeam userId invitedTo role db = .ok (answer, db')) :
    KeepsUsers db db' := by
  rcases bind_eq_ok.mp h with ⟨_, _, h⟩
  rcases bind_eq_ok.mp h with ⟨_, _, h⟩
  rcases bind_eq_ok.mp h with ⟨_, _, h⟩
  rcases bind_eq_ok.mp h with ⟨_, _, h⟩
  rcases bind_eq_ok.mp h with ⟨joined, hjoined, h⟩
  cases h
  exact .ofSame (Directory.insertMembership_eq_ok hjoined).2.1

theorem changeTeamMemberRole_users {userId : Uuid} {slug member : Text}
    {role : TeamRole} {answer : TeamMutationResponse}
    (h : changeTeamMemberRole userId slug member role db =
      .ok (answer, db')) : KeepsUsers db db' := by
  rcases bind_eq_ok.mp h with ⟨_, _, h⟩
  rcases bind_eq_ok.mp h with ⟨_, _, h⟩
  rcases bind_eq_ok.mp h with ⟨⟨_, _, _⟩, _, h⟩
  rcases bind_eq_ok.mp h with ⟨_, _, h⟩
  rcases bind_eq_ok.mp h with ⟨_, _, h⟩
  rcases bind_eq_ok.mp h with ⟨_, _, h⟩
  rcases bind_eq_ok.mp h with ⟨_, _, h⟩
  dsimp only at h
  split at h
  · split at h
    · rcases bind_eq_ok.mp h with ⟨removed, hremoved, h⟩
      cases h
      have hsame := removeTeamWorkspacesForUser_users hremoved
      exact .ofSame hsame
    · cases h
      exact .ofSame rfl
  · cases h
    exact .ofSame rfl

theorem updateTeamSettings_users {userId : Uuid} {slug : Text}
    {membersCanPublish : Bool} {answer : TeamMutationResponse}
    (h : updateTeamSettings userId slug membersCanPublish db =
      .ok (answer, db')) : KeepsUsers db db' := by
  rcases bind_eq_ok.mp h with ⟨_, _, h⟩
  rcases bind_eq_ok.mp h with ⟨⟨_, _, _⟩, _, h⟩
  rcases bind_eq_ok.mp h with ⟨_, _, h⟩
  dsimp only at h
  split at h
  · split at h
    · cases h
      exact .ofSame rfl
    · rcases bind_eq_ok.mp h with ⟨removed, hremoved, h⟩
      cases h
      have hkept := KeepsUsers.fold
        (fun _ _ _ hnext => removeTeamWorkspacesForUser_users hnext) hremoved
      exact hkept
  · cases h
    exact .ofSame rfl

theorem endMembership_users {actor team member : Uuid}
    (h : db.endMembership actor team member = .ok db') :
    KeepsUsers db db' := by
  rcases bind_eq_ok.mp h with ⟨cleaned, hcleaned, h⟩
  cases h
  have hsame := removeTeamWorkspacesForUser_users hcleaned
  exact .ofSame hsame

theorem removeTeamMember_users {userId : Uuid}
    {request : TeamMemberRemoveRequest} {answer : TeamMutationResponse}
    (h : registry.removeTeamMember userId request db = .ok (answer, db')) :
    KeepsUsers db db' := by
  rcases bind_eq_ok.mp h with ⟨_, _, h⟩
  rcases bind_eq_ok.mp h with ⟨_, _, h⟩
  rcases bind_eq_ok.mp h with ⟨_, _, h⟩
  split at h
  · cases h
    exact .ofSame rfl
  · rcases bind_eq_ok.mp h with ⟨⟨_, _, _⟩, _, h⟩
    rcases bind_eq_ok.mp h with ⟨_, _, h⟩
    rcases bind_eq_ok.mp h with ⟨_, _, h⟩
    rcases bind_eq_ok.mp h with ⟨_, _, h⟩
    rcases bind_eq_ok.mp h with ⟨_, _, h⟩
    rcases bind_eq_ok.mp h with ⟨ended, hended, h⟩
    rcases bind_eq_ok.mp h with ⟨recorded, hrecorded, h⟩
    rcases Db.recordTeamOperation_eq_ok hrecorded with ⟨_, rfl⟩
    cases h
    have hkept := endMembership_users hended
    exact hkept

theorem leaveTeam_users {userId : Uuid} {request : TeamLeaveRequest}
    {answer : TeamLeaveResponse}
    (h : registry.leaveTeam userId request db = .ok (answer, db')) :
    KeepsUsers db db' := by
  rcases bind_eq_ok.mp h with ⟨_, _, h⟩
  rcases bind_eq_ok.mp h with ⟨_, _, h⟩
  rcases bind_eq_ok.mp h with ⟨_, _, h⟩
  split at h
  · cases h
    exact .ofSame rfl
  · rcases bind_eq_ok.mp h with ⟨⟨_, _, _⟩, _, h⟩
    rcases bind_eq_ok.mp h with ⟨_, _, h⟩
    rcases bind_eq_ok.mp h with ⟨ended, hended, h⟩
    rcases bind_eq_ok.mp h with ⟨recorded, hrecorded, h⟩
    rcases Db.recordTeamOperation_eq_ok hrecorded with ⟨_, rfl⟩
    cases h
    have hkept := endMembership_users hended
    exact hkept

theorem deleteTeam_users {userId : Uuid} {slug : Text}
    {answer : TeamDeleteResponse}
    (h : deleteTeam userId slug db = .ok (answer, db')) :
    KeepsUsers db db' := by
  rcases bind_eq_ok.mp h with ⟨_, _, h⟩
  rcases bind_eq_ok.mp h with ⟨⟨_, _, _⟩, _, h⟩
  rcases bind_eq_ok.mp h with ⟨_, _, h⟩
  rcases bind_eq_ok.mp h with ⟨buried, hburied, h⟩
  rcases bind_eq_ok.mp h with ⟨cleared, hcleared, h⟩
  cases h
  have hkept := tombstoneOwnedResources_users hburied
  exact hkept.trans (deleteNamespace_users hcleared)

theorem deleteAccount_users {userId : Uuid} {answer : AccountDeleteResponse}
    (h : deleteAccount userId db = .ok (answer, db')) : KeepsUsers db db' := by
  rcases bind_eq_ok.mp h with ⟨_, _, h⟩
  split at h
  · cases h
  · rcases bind_eq_ok.mp h with ⟨left, hleft, h⟩
    rcases bind_eq_ok.mp h with ⟨buried, hburied, h⟩
    rcases bind_eq_ok.mp h with ⟨cleared, hcleared, h⟩
    cases h
    have hgone : KeepsUsers db left :=
      .fold (fun _ _ _ hnext => removeTeamWorkspacesForUser_users hnext) hleft
    have hburiedUsers := tombstoneOwnedResources_users hburied
    have hcleared := deleteNamespace_users hcleared
    exact hgone.trans (hburiedUsers.trans hcleared)

end Registry

/-!
## Calls that have read
-/

/-- The user of a waiting import or restore may have workspaces on what the
own namespace has. -/
def Plan.Admitted {ext : Externals} (directory : Directory) :
    Plan ext -> Prop
  | .importing plan => directory.Admits plan.authority.namespaceId
      plan.authority.userId
  | .restore plan => directory.Admits plan.authority.namespaceId
      plan.authority.userId
  | _ => True

theorem Plan.Admitted.keep {ext : Externals} {plan : Plan ext}
    {directory directory' : Directory} (h : plan.Admitted directory)
    (husers : forall user, user ∈ directory'.users ->
      user ∈ directory.users ∨
        user.namespaceId ≠ plan.authority.namespaceId) :
    plan.Admitted directory' := by
  have hadmits : forall owner, directory.Admits plan.authority.namespaceId
      owner -> directory'.Admits plan.authority.namespaceId owner := by
    intro owner hadmits user huser hplace
    rcases husers user huser with hold | hnew
    · exact hadmits user hold hplace
    · exact absurd hplace hnew
  cases plan with
  | importing plan => exact hadmits _ h
  | save plan => trivial
  | restore plan => exact hadmits _ h
  | rename plan => trivial

namespace Registry

variable {registry : Registry} {db : Db} {store : ObjectStore}
  {userId : Uuid}

theorem readPrivateSkillImport_admitted {request : CommitRequest}
    {plan : PendingImport registry.ext}
    (h : registry.readPrivateSkillImport store userId request db =
      .ok (.inr plan)) : (Plan.importing plan).Admitted db.directory := by
  rcases bind_eq_ok.mp h with ⟨authority, hauthority, h⟩
  have hadmits := Directory.admits_of_userAuthority hauthority
  rcases bind_eq_ok.mp h with ⟨_, _, h⟩
  rcases bind_eq_ok.mp h with ⟨_, _, h⟩
  split at h
  · rcases bind_eq_ok.mp h with ⟨_, _, h⟩
    cases h
  · rcases bind_eq_ok.mp h with ⟨_, _, h⟩
    rcases bind_eq_ok.mp h with ⟨_, _, h⟩
    rcases bind_eq_ok.mp h with ⟨_, _, h⟩
    rcases bind_eq_ok.mp h with ⟨_, _, h⟩
    rcases bind_eq_ok.mp h with ⟨_, _, h⟩
    rcases bind_eq_ok.mp h with ⟨_, _, h⟩
    rcases bind_eq_ok.mp h with ⟨_, _, h⟩
    rcases bind_eq_ok.mp h with ⟨_, _, h⟩
    rcases bind_eq_ok.mp h with ⟨⟨_, _⟩, _, h⟩
    rcases bind_eq_ok.mp h with ⟨_, _, h⟩
    rcases bind_eq_ok.mp h with ⟨_, _, h⟩
    cases h
    exact hadmits

theorem readRestore_admitted {request : RestoreSkillRequest}
    {plan : PendingRestore}
    (h : registry.readRestore store userId request db = .ok (.inr plan)) :
    (.restore plan : Plan registry.ext).Admitted db.directory := by
  rcases bind_eq_ok.mp h with ⟨authority, hauthority, h⟩
  have hadmits := Directory.admits_of_userAuthority hauthority
  rcases bind_eq_ok.mp h with ⟨_, _, h⟩
  rcases bind_eq_ok.mp h with ⟨replay, _, h⟩
  split at h
  · cases h
  · rcases bind_eq_ok.mp h with ⟨target, htarget, h⟩
    cases h
    rcases bind_eq_ok.mp htarget with ⟨_, _, htarget⟩
    rcases bind_eq_ok.mp htarget with ⟨_, _, htarget⟩
    rcases bind_eq_ok.mp htarget with ⟨_, _, htarget⟩
    rcases bind_eq_ok.mp htarget with ⟨_, _, htarget⟩
    rcases bind_eq_ok.mp htarget with ⟨_, _, htarget⟩
    rcases bind_eq_ok.mp htarget with ⟨_, _, htarget⟩
    rcases bind_eq_ok.mp htarget with ⟨⟨_, _⟩, _, htarget⟩
    cases htarget
    exact hadmits

end Registry

/-!
## What every event keeps
-/

namespace Service

variable {registry : Registry} {service : Service registry}

/-- The tables are sound, and the users of the waiting calls are admitted. -/
structure Kept (service : Service registry) : Prop where
  sound : service.db.RegistrySound
  admitted : forall plan, plan ∈ service.plans ->
    plan.Admitted service.db.directory

theorem Kept.ofDb (h : service.Kept) {db : Db} (hsound : db.RegistrySound)
    (hdirectory : db.directory = service.db.directory) :
    Kept { service with db } where
  sound := hsound
  admitted := by
    intro plan hplan
    rw [hdirectory]
    exact h.admitted plan hplan

theorem Kept.settle {α : Type} {result : Except ApiError (α × Db)}
    (h : service.Kept)
    (hdirectory : (service.settle result).db.directory =
      service.db.directory)
    (hok : forall value db, result = .ok (value, db) -> db.RegistrySound) :
    (service.settle result).Kept := by
  cases result with
  | error error => exact h
  | ok answer => exact h.ofDb (hok answer.1 answer.2 rfl) hdirectory

theorem Kept.await {α β : Type} {plan : β -> Plan registry.ext}
    {result : Except ApiError (α ⊕ β)} (h : service.Kept)
    (hok : forall read, result = .ok (.inr read) ->
      (plan read).Admitted service.db.directory) :
    (service.await plan result).Kept := by
  refine await_of h ?_
  intro read hread
  constructor
  · exact h.sound
  · intro other hother
    rcases List.mem_append.mp hother with hold | hnew
    · exact h.admitted other hold
    · rw [List.mem_singleton.mp hnew]
      exact hok read hread

theorem Kept.writePlan (h : service.Kept) (newConflictId : Uuid)
    {plan : Plan registry.ext} (hplan : plan.Admitted service.db.directory) :
    (service.writePlan newConflictId plan).Kept := by
  have hdirectory : (service.writePlan newConflictId plan).db.directory = _ :=
    writePlan_directory newConflictId plan
  cases plan with
  | importing plan =>
      exact h.settle hdirectory fun _ _ hwritten =>
        Registry.writePrivateSkillImport_sound h.sound hplan hwritten
  | save plan =>
      exact h.settle hdirectory fun _ _ hwritten =>
        Registry.writePrivateRevision_sound h.sound hwritten
  | restore plan =>
      exact h.settle hdirectory fun _ _ hwritten =>
        Registry.writeRestore_sound h.sound hplan hwritten
  | rename plan =>
      refine h.settle hdirectory fun _ _ hwritten => ?_
      cases plan with
      | personal plan =>
          exact Registry.writePersonalRename_sound h.sound hwritten
      | team plan => exact Registry.writeTeamRename_sound h.sound hwritten

theorem Kept.serve (h : service.Kept) (call : ServiceCall) :
    (service.serve call).Kept := by
  have hdirectory : (service.serve call).db.directory = _ :=
    serve_directory call
  cases call with
  | prepareImport =>
      exact h.settle hdirectory fun _ _ hok =>
        Registry.preparePrivateSkillImport_sound h.sound hok
  | commitImport =>
      exact h.await fun _ hread =>
        Registry.readPrivateSkillImport_admitted hread
  | prepare =>
      exact h.settle hdirectory fun _ _ hok =>
        Registry.preparePrivateRevision_sound h.sound hok
  | commit => exact h.await fun _ _ => trivial
  | publish =>
      exact h.settle hdirectory fun _ _ hok =>
        Registry.publishSkill_sound h.sound hok
  | restore =>
      exact h.await fun _ hread => Registry.readRestore_admitted hread
  | rename => exact h.await fun _ _ => trivial
  | createProposal =>
      exact h.settle hdirectory fun _ _ hok =>
        Registry.createProposal_sound h.sound hok
  | acceptProposal =>
      exact h.settle hdirectory fun _ _ hok =>
        Registry.acceptProposal_sound h.sound hok
  | write index newConflictId =>
      refine writeAt_of h ?_
      intro plan hplan
      have hrest : Kept
          { service with plans := service.plans.eraseIdx index } := by
        constructor
        · exact h.sound
        · exact fun other hother =>
            h.admitted other (List.mem_of_mem_eraseIdx hother)
      exact hrest.writePlan newConflictId
        (h.admitted plan (List.mem_of_getElem? hplan))

theorem Kept.mutate (h : service.Kept) (mutation : Mutation) :
    (service.mutate mutation).Kept := by
  have hdirectory : (service.mutate mutation).db.directory = _ :=
    mutate_directory mutation
  cases mutation with
  | activity activity =>
      cases activity with
      | call call => exact h.serve call
      | unpublish =>
          exact h.settle hdirectory fun _ _ hok =>
            Registry.unpublishSkill_sound h.sound hok
      | prune =>
          exact h.settle hdirectory fun _ _ hok =>
            Registry.pruneSkillHistory_sound h.sound hok
      | transfer =>
          exact h.settle hdirectory fun _ _ hok =>
            Registry.transferResource_sound h.sound hok
      | collect =>
          exact h.settle hdirectory fun _ _ hok =>
            Registry.drainBlobGc_sound h.sound hok
  | deleteSkill =>
      exact h.settle hdirectory fun _ _ hok =>
        Registry.deleteSkill_sound h.sound hok
  | deprecateSkill =>
      exact h.settle hdirectory fun _ _ hok =>
        Registry.deprecateSkill_sound h.sound hok
  | share =>
      exact h.settle hdirectory fun _ _ hok =>
        Registry.mutatePrivateShare_sound h.sound hok
  | quarantine =>
      exact h.settle hdirectory fun _ _ hok =>
        Registry.mutateQuarantine_sound h.sound hok
  | createPack =>
      exact h.settle hdirectory fun _ _ hok =>
        Registry.createPack_sound h.sound hok
  | mutatePack =>
      exact h.settle hdirectory fun _ _ hok =>
        Registry.mutatePack_sound h.sound hok
  | publishPack =>
      exact h.settle hdirectory fun _ _ hok =>
        Registry.publishPack_sound h.sound hok
  | renamePack =>
      exact h.settle hdirectory fun _ _ hok =>
        Registry.renamePack_sound h.sound hok
  | unpublishPack =>
      exact h.settle hdirectory fun _ _ hok =>
        Registry.unpublishPack_sound h.sound hok
  | deletePack =>
      exact h.settle hdirectory fun _ _ hok =>
        Registry.deletePack_sound h.sound hok
  | transferPack =>
      exact h.settle hdirectory fun _ _ hok =>
        Registry.transferPack_sound h.sound hok
  | subscribe =>
      exact h.settle hdirectory fun _ _ hok =>
        Registry.mutateSubscription_sound h.sound hok
  | subscribePack =>
      exact h.settle hdirectory fun _ _ hok =>
        Registry.mutatePackSubscription_sound h.sound hok
  | assignPack =>
      exact h.settle hdirectory fun _ _ hok =>
        Registry.mutateTeamPackAssignment_sound h.sound hok

/-- New users do not disturb the calls that wait. -/
theorem Kept.settleUsers {α : Type} {result : Except ApiError (α × Db)}
    (h : service.Kept)
    (hok : forall value db, result = .ok (value, db) ->
      db.RegistrySound ∧ forall user, user ∈ db.directory.users ->
        user ∈ service.db.directory.users ∨
          forall plan, plan ∈ service.plans ->
            user.namespaceId ≠ plan.authority.namespaceId) :
    (service.settle result).Kept := by
  refine settle_of h ?_
  intro value db hresult
  rcases hok value db hresult with ⟨hsound, husers⟩
  constructor
  · exact hsound
  · intro plan hplan
    refine (h.admitted plan hplan).keep ?_
    intro user huser
    rcases husers user huser with hold | hnew
    · exact .inl hold
    · exact .inr (hnew plan hplan)

theorem Kept.settleKnown {α : Type} {result : Except ApiError (α × Db)}
    (h : service.Kept)
    (hok : forall value db, result = .ok (value, db) ->
      db.RegistrySound ∧ Db.KeepsUsers service.db db) :
    (service.settle result).Kept := by
  refine h.settleUsers ?_
  intro value db hresult
  rcases hok value db hresult with ⟨hsound, husers⟩
  exact ⟨hsound, fun user huser => .inl (husers user huser)⟩

end Service

namespace Site

variable {registry : Registry} {site : Site registry}

theorem changeAccount_kept {change : AccountChange} (h : site.service.Kept)
    (hlikely : site.Plausible (.account change)) :
    (site.service.changeAccount change).Kept := by
  cases change with
  | createInstallation =>
      refine h.settleKnown fun _ _ hok =>
        ⟨Registry.createInstallation_sound h.sound hok, ?_⟩
      rcases bind_eq_ok.mp hok with ⟨_, _, hok⟩
      cases hok
      exact .ofSame rfl
  | claimIdentity namespaceId =>
      rcases hlikely with ⟨hresources, hplans⟩
      refine h.settleUsers fun _ _ hok =>
        ⟨Registry.claimIdentity_sound h.sound hresources hok, ?_⟩
      intro user huser
      rcases Registry.claimIdentity_users hok user huser with hold | hnew
      · exact .inl hold
      · rw [hnew]
        exact .inr fun plan hplan => (hplans plan hplan).symm
  | login =>
      exact h.settleKnown fun _ _ hok =>
        ⟨Registry.login_sound h.sound hok, Registry.login_users hok⟩
  | provision userId =>
      exact h.ofDb (Registry.provisionTeamWorkspaces_sound h.sound userId)
        (Registry.provisionTeamWorkspaces_directory userId)
  | createTeam =>
      exact h.settleKnown fun _ _ hok =>
        ⟨Registry.createTeam_sound h.sound hok, Registry.createTeam_users hok⟩
  | joinTeam =>
      exact h.settleKnown fun _ _ hok =>
        ⟨Registry.joinTeam_sound h.sound hok, Registry.joinTeam_users hok⟩
  | changeRole =>
      exact h.settleKnown fun _ _ hok =>
        ⟨Registry.changeTeamMemberRole_sound h.sound hok,
          Registry.changeTeamMemberRole_users hok⟩
  | updateSettings =>
      exact h.settleKnown fun _ _ hok =>
        ⟨Registry.updateTeamSettings_sound h.sound hok,
          Registry.updateTeamSettings_users hok⟩
  | removeMember =>
      exact h.settleKnown fun _ _ hok =>
        ⟨Registry.removeTeamMember_sound h.sound hok,
          Registry.removeTeamMember_users hok⟩
  | leaveTeam =>
      exact h.settleKnown fun _ _ hok =>
        ⟨Registry.leaveTeam_sound h.sound hok, Registry.leaveTeam_users hok⟩
  | deleteTeam =>
      exact h.settleKnown fun _ _ hok =>
        ⟨Registry.deleteTeam_sound h.sound hok, Registry.deleteTeam_users hok⟩
  | deleteAccount =>
      exact h.settleKnown fun _ _ hok =>
        ⟨Registry.deleteAccount_sound h.sound hok,
          Registry.deleteAccount_users hok⟩
  | setTopics =>
      refine h.settleKnown fun _ _ hok =>
        ⟨Registry.setResourceTopics_sound h.sound hok, ?_⟩
      rcases bind_eq_ok.mp hok with ⟨_, _, hok⟩
      rcases bind_eq_ok.mp hok with ⟨_, _, hok⟩
      rcases bind_eq_ok.mp hok with ⟨_, _, hok⟩
      rcases bind_eq_ok.mp hok with ⟨_, _, hok⟩
      rcases bind_eq_ok.mp hok with ⟨_, _, hok⟩
      cases hok
      exact .ofSame rfl

theorem perform_kept {index : Nat} {task : DrainTask} (h : site.service.Kept) :
    (site.perform index task).service.Kept := by
  cases task with
  | search event => exact h
  | advance packId event =>
      refine h.settle (Service.settle_directory ?_) ?_
      · intro _ _ hok
        rcases bind_eq_ok.mp hok with ⟨⟨pack, stored⟩, hstored, hok⟩
        have hsame := (advancePackForReleaseEvent_change
          hstored).sameNames.directory
        cases pack with
        | none =>
            cases hok
            exact hsame
        | some pack =>
            cases hok
            exact hsame
      · exact fun _ _ hok => advancePackForReleaseEvent_sound h.sound hok
  | complete event =>
      have hcompleted : (site.db.completeReleaseEvent event.id).directory =
          site.db.directory ∧
            (site.db.completeReleaseEvent event.id).RegistrySound := by
        unfold Db.completeReleaseEvent
        split
        · exact ⟨rfl, h.sound⟩
        · exact ⟨rfl, h.sound.same
            ⟨rfl, rfl, rfl, rfl, rfl, .refl _, .refl _⟩ rfl⟩
      exact h.ofDb hcompleted.2 hcompleted.1

theorem operate_kept (operation : Operation) (h : site.service.Kept) :
    (site.operate operation).service.Kept := by
  cases operation with
  | mutation mutation => exact h.mutate mutation
  | drain =>
      unfold operate
      dsimp only
      split
      · exact h
      · exact h
  | work index =>
      show (site.work index).service.Kept
      unfold work
      split
      · exact h
      · exact perform_kept h

theorem evolve_kept {event : Event} (h : site.service.Kept)
    (hlikely : site.Plausible event) :
    (site.evolve event).service.Kept := by
  cases event with
  | operation operation => exact operate_kept operation h
  | account change => exact changeAccount_kept h hlikely
  | beside db =>
      refine h.ofDb ?_ hlikely.directory
      refine h.sound.same ?_ hlikely.resources
      constructor
      · exact hlikely.directory
      · exact hlikely.workspaces
      · exact hlikely.snapshots
      · exact hlikely.revisions
      · exact hlikely.releases
      · rw [hlikely.subscriptions]
        exact .refl _
      · rw [hlikely.devices]
        exact .refl _

variable (registry) in
/-- A registry that nobody has used. -/
def new : Site registry :=
  .empty registry .empty

theorem new_kept : (new registry).service.Kept where
  sound := {
    catalog := {
      skills := by
        intro id row hrow
        cases hrow
      subscriptions := fun _ hrow => by cases hrow
      devices := fun _ hrow => by cases hrow
      subscriptionKey := List.nodup_nil
      deviceKey := List.nodup_nil
      peopled := {
        personal := fun _ hspace => by cases hspace
        teamed := fun _ hmember => by cases hmember } }
    workspaces := {
      archived := fun _ hrow => by cases hrow
      released := fun _ hrow => by cases hrow
      key := List.nodup_nil
      held := fun _ hrow => by cases hrow } }
  admitted := fun _ hplan => by cases hplan

theorem kept_of_run {past : List Event}
    (hrun : Run Evolves (new registry) past site) : site.service.Kept := by
  refine hrun.invariant (P := fun site => site.service.Kept) new_kept ?_
  intro site event next h hstep
  rw [hstep.2]
  exact evolve_kept h hstep.1

end Site

/-!
## A first user

A device claims an identity for a user, who creates a pack.
-/

namespace Sample

def arrivals : List Event :=
  [ .account (.createInstallation (uuid 70)),
    .account (.claimIdentity amy.namespaceId amy.id (uuid 71)
      amy.authorPrincipalId (principalId 72) (uuid 70) "amy".toList),
    .operation (packCreation 51 4 "a") ]

def inhabited : Site naming :=
  arrivals.foldl Site.evolve (Site.new naming)

theorem run_arrivals : Run Site.Evolves (Site.new naming) arrivals inhabited := by
  refine Run.guarded_of_all ⟨trivial, ⟨?_, ?_⟩, trivial, trivial⟩
  · intro row hrow
    cases hrow
  · intro plan hplan
    cases hplan

end Sample

end Denju
