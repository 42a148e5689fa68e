import Denju.Registry.AncestryAccess
import Denju.Registry.PackChanges
import Denju.Registry.Subscriptions

/-!
# Cleaning up after a member and after a pack

A membership ends because its user leaves the team or because the owner removes
the user.  Both ways run the same statements, under the row policies of
different users.  A policy drops the rows that the acting user may not touch
from a deletion, without an error, and the policy of account subscriptions is
that every user has only the own ones.
-/

namespace Denju

open Lib

/-!
## Statements
-/

namespace Directory

variable (directory : Directory)

def userBySlug (slug : Text) : Option Uuid :=
  (directory.users.find? fun user =>
    (directory.namespaceById user.namespaceId).any fun row =>
      row.slug = slug ∧ row.kind = .user).map User.id

end Directory

namespace Db

variable (db : Db)

/-- The team and the membership of the user. -/
def teamMembershipForUpdate (userId : Uuid) (slug : Text) :
    Except ApiError (Uuid × TeamRole × Bool) := do
  let notFound := ApiError.new .notFound "team not found"
  let space <- okOr (db.directory.namespaceBySlug slug) notFound
  let team <- okOr (db.directory.team space.id) notFound
  let membership <- okOr (db.directory.membership space.id userId) notFound
  return (space.id, membership.role, team.membersCanPublish)

/-- The resource is a skill of the team, live or not. -/
def isTeamSkill (team id : Uuid) : Bool :=
  (db.findResource id).any fun row =>
    row.ownerNamespaceId = team ∧ row.kind = .skill

/-- The deletion of the workspaces and conflicts of a user on the skills of a
team, which is above the row policies and allowed to the user and to the owner
of the team. -/
def removeTeamWorkspacesForUser (actor team user : Uuid) :
    Except ApiError Db := do
  let allowed := (db.directory.membership team actor).any fun row =>
    decide (actor = user) || decide (row.role = .owner)
  ensure allowed (internalApiError "team workspace cleanup is unauthorized")
  return { db with
    conflicts := deleteWhere
      (fun row => decide (row.workspaceUserId = user) &&
        db.isTeamSkill team row.resourceId)
      db.conflicts
    workspaces := deleteWhere
      (fun row => decide (row.workspaceUserId = user) &&
        db.isTeamSkill team row.resourceId)
      db.workspaces }

/-- The acting user sees that the resource is shared with the user. -/
def seesShareOf (actor id user : Uuid) : Bool :=
  db.sharedWith id user &&
    (decide (user = actor) || db.canManageResource actor id)

/-- The subscription of the user to a private resource of the team that no share
gives the user, as the acting user sees it. -/
def membershipSubscription (actor team user : Uuid) (row : SubscriptionRow) :
    Bool :=
  decide (row.userId = user) &&
    (db.findResource row.resourceId).any fun resource =>
      db.canReadResource actor resource.id &&
        decide (resource.ownerNamespaceId = team) &&
        decide (resource.visibility = .priv) && !resource.deleted &&
        (decide (resource.kind = .pack) ||
          !db.seesShareOf actor resource.id user)

def removeTeamMembershipSubscriptions (actor team user : Uuid) : Db :=
  { db with
    subscriptions := deleteVisible (fun row => row.userId == actor)
      (db.membershipSubscription actor team user) db.subscriptions }

/-- Delete a membership, as far as the acting user may: users their own, and
owners those of their team. -/
def deleteMembership (actor team user : Uuid) : Db :=
  { db with
    directory := { db.directory with
      memberships := deleteVisible
        (fun row => row.userId == actor ||
          db.isTeamOwner actor row.teamNamespaceId)
        (fun row => row.teamNamespaceId = team ∧ row.userId = user)
        db.directory.memberships
      membershipKey := db.directory.membershipKey.sublist
        ((List.filter_sublist).map _) } }

/-- What both ways to end a membership delete. -/
def endMembership (actor team user : Uuid) : Except ApiError Db := do
  let db <- db.removeTeamWorkspacesForUser actor team user
  let db := db.removeTeamMembershipSubscriptions actor team user
  return db.deleteMembership actor team user

end Db

/-!
## Ending a membership
-/

def teamMutationSummary (team : Uuid) (slug : Text) (role : TeamRole)
    (membersCanPublish changed : Bool) : TeamMutationResponse where
  team :=
    { namespaceId := team
      team := '@' :: slug
      role
      membersCanPublish }
  changed

namespace Registry

variable (self : Registry)

def removeTeamMember (userId : Uuid) (request : TeamMemberRemoveRequest)
    (db : Db) : Except ApiError (TeamMutationResponse × Db) := do
  let authority <- db.directory.userAuthority userId
  checkTeamHash request.requestHash
    (self.hashes.teamMemberRemove request.toTeamMemberRemoveRequestHashInput)
  let replay <- db.replayTeamOperation TeamOperationOutcome.memberRemove?
    authority.userId request.operationId request.requestHash
  match replay with
  | some outcome => return (outcome, db)
  | none => do
      let (team, actorRole, membersCanPublish) <-
        db.teamMembershipForUpdate authority.userId request.team
      ensure (decide (actorRole = .owner))
        (ApiError.new .unauthorized "only the team owner may remove members")
      let target <- okOr (db.directory.userBySlug request.member)
        (ApiError.new .notFound "user not found")
      let membership <- okOr (db.directory.membership team target)
        (ApiError.new .notFound "team member not found")
      ensure (decide (membership.role ≠ .owner))
        (ApiError.new .invalidRequest "the team owner cannot be removed")
      let db <- db.endMembership authority.userId team target
      let outcome := teamMutationSummary team request.team actorRole
        membersCanPublish true
      let db <- db.recordTeamOperation
        { userId := authority.userId
          operationId := request.operationId
          requestHash := request.requestHash
          target := team
          outcome := .memberRemove outcome }
      return (outcome, db)

def leaveTeam (userId : Uuid) (request : TeamLeaveRequest) (db : Db) :
    Except ApiError (TeamLeaveResponse × Db) := do
  let authority <- db.directory.userAuthority userId
  checkTeamHash request.requestHash
    (self.hashes.teamLeave request.toTeamLeaveRequestHashInput)
  let replay <- db.replayTeamOperation TeamOperationOutcome.leave?
    authority.userId request.operationId request.requestHash
  match replay with
  | some outcome => return (outcome, db)
  | none => do
      let (team, role, _) <-
        db.teamMembershipForUpdate authority.userId request.team
      ensure (decide (role ≠ .owner))
        (ApiError.new .invalidRequest
          "team owner must transfer ownership or delete the team before leaving")
      let db <- db.endMembership authority.userId team authority.userId
      let outcome : TeamLeaveResponse :=
        { team := '@' :: request.team, left := true }
      let db <- db.recordTeamOperation
        { userId := authority.userId
          operationId := request.operationId
          requestHash := request.requestHash
          target := team
          outcome := .leave outcome }
      return (outcome, db)

end Registry

/-!
## Ending a membership, step by step
-/

namespace Db

variable {db db' : Db} {actor team user : Uuid}

theorem teamMembershipForUpdate_eq_ok {slug : Text} {role : TeamRole}
    {membersCanPublish : Bool}
    (h : db.teamMembershipForUpdate user slug =
      .ok (team, role, membersCanPublish)) :
    exists space membership, db.directory.namespaceBySlug slug = some space ∧
      space.id = team ∧ db.directory.membership team user = some membership ∧
        membership.role = role := by
  rcases bind_eq_ok.mp h with ⟨space, hspace, h⟩
  rcases bind_eq_ok.mp h with ⟨row, _, h⟩
  rcases bind_eq_ok.mp h with ⟨membership, hmembership, h⟩
  cases h
  exact ⟨space, membership, okOr_eq_ok.mp hspace, rfl,
    okOr_eq_ok.mp hmembership, rfl⟩

theorem endMembership_eq_ok (h : db.endMembership actor team user = .ok db') :
    db' = (({ db with
      conflicts := deleteWhere
        (fun row => decide (row.workspaceUserId = user) &&
          db.isTeamSkill team row.resourceId)
        db.conflicts
      workspaces := deleteWhere
        (fun row => decide (row.workspaceUserId = user) &&
          db.isTeamSkill team row.resourceId)
        db.workspaces
      subscriptions := deleteVisible (fun row => row.userId == actor)
        (db.membershipSubscription actor team user) db.subscriptions
      } : Db).deleteMembership actor team user) := by
  rcases bind_eq_ok.mp h with ⟨cleaned, hcleaned, h⟩
  rcases bind_eq_ok.mp hcleaned with ⟨_, _, hcleaned⟩
  cases hcleaned
  cases h
  rfl

end Db

namespace Registry

variable {self : Registry} {db db' : Db} {userId : Uuid}

theorem removeTeamMember_eq_ok {request : TeamMemberRemoveRequest}
    {outcome : TeamMutationResponse}
    (h : self.removeTeamMember userId request db = .ok (outcome, db'))
    (hfresh : Db.findOperation db.teamOperations userId request.operationId =
      none) :
    exists space owner member removed ended teamOperations,
      db.directory.namespaceBySlug request.team = some space ∧
      db.directory.membership space.id userId = some owner ∧
      owner.role = .owner ∧
      db.directory.userBySlug request.member = some member ∧
      db.directory.membership space.id member = some removed ∧
      removed.role ≠ .owner ∧
      db.endMembership userId space.id member = .ok ended ∧
      db' = { ended with teamOperations } := by
  rcases bind_eq_ok.mp h with ⟨authority, hauthority, h⟩
  rcases Directory.userAuthority_eq_ok hauthority with ⟨_, _, _, huser, _⟩
  rcases bind_eq_ok.mp h with ⟨_, _, h⟩
  rcases bind_eq_ok.mp h with ⟨replay, hreplay, h⟩
  rw [huser] at hreplay h
  unfold Db.replayTeamOperation at hreplay
  rw [hfresh] at hreplay
  cases hreplay
  rcases bind_eq_ok.mp h with ⟨⟨team, role, publish⟩, hteam, h⟩
  rcases Db.teamMembershipForUpdate_eq_ok hteam with
    ⟨space, owner, hspace, rfl, howner, rfl⟩
  rcases bind_eq_ok.mp h with ⟨_, hrole, h⟩
  rcases bind_eq_ok.mp h with ⟨member, hmember, h⟩
  rcases bind_eq_ok.mp h with ⟨removed, hremoved, h⟩
  rcases bind_eq_ok.mp h with ⟨_, hother, h⟩
  rcases bind_eq_ok.mp h with ⟨ended, hended, h⟩
  rcases bind_eq_ok.mp h with ⟨recorded, hrecorded, h⟩
  rcases Db.recordTeamOperation_eq_ok hrecorded with ⟨operations, rfl⟩
  cases h
  exact ⟨space, owner, member, removed, ended, operations, hspace, howner,
    of_decide_eq_true (ensure_eq_ok.mp hrole), okOr_eq_ok.mp hmember,
    okOr_eq_ok.mp hremoved, of_decide_eq_true (ensure_eq_ok.mp hother), hended,
    rfl⟩

theorem leaveTeam_eq_ok {request : TeamLeaveRequest}
    {outcome : TeamLeaveResponse}
    (h : self.leaveTeam userId request db = .ok (outcome, db'))
    (hfresh : Db.findOperation db.teamOperations userId request.operationId =
      none) :
    exists space member ended teamOperations,
      db.directory.namespaceBySlug request.team = some space ∧
      db.directory.membership space.id userId = some member ∧
      db.endMembership userId space.id userId = .ok ended ∧
      db' = { ended with teamOperations } := by
  rcases bind_eq_ok.mp h with ⟨authority, hauthority, h⟩
  rcases Directory.userAuthority_eq_ok hauthority with ⟨_, _, _, huser, _⟩
  rcases bind_eq_ok.mp h with ⟨_, _, h⟩
  rcases bind_eq_ok.mp h with ⟨replay, hreplay, h⟩
  rw [huser] at hreplay h
  unfold Db.replayTeamOperation at hreplay
  rw [hfresh] at hreplay
  cases hreplay
  rcases bind_eq_ok.mp h with ⟨⟨team, role, publish⟩, hteam, h⟩
  rcases Db.teamMembershipForUpdate_eq_ok hteam with
    ⟨space, member, hspace, rfl, hmember, rfl⟩
  rcases bind_eq_ok.mp h with ⟨_, hrole, h⟩
  rcases bind_eq_ok.mp h with ⟨ended, hended, h⟩
  rcases bind_eq_ok.mp h with ⟨recorded, hrecorded, h⟩
  rcases Db.recordTeamOperation_eq_ok hrecorded with ⟨operations, rfl⟩
  cases h
  exact ⟨space, member, ended, operations, hspace, hmember, hended, rfl⟩

end Registry

/-!
## Comparing the two ways
-/

/-- The tables agree on what is left of the member. -/
structure SameCleanup (member : Uuid) (a b : Db) : Prop where
  memberships : a.directory.memberships = b.directory.memberships
  workspaces : a.workspaces = b.workspaces
  conflicts : a.conflicts = b.conflicts
  subscriptions :
    a.subscriptions.filter (fun row => row.userId = member) =
      b.subscriptions.filter fun row => row.userId = member
  installationSubscriptions :
    a.installationSubscriptions = b.installationSubscriptions

/-- The subscription of the member is to a live private resource of the team
that is a pack, or a skill that is not shared with the member. -/
def Db.GrantedByMembership (db : Db) (team member : Uuid)
    (row : SubscriptionRow) : Prop :=
  row.userId = member ∧ exists resource,
    db.findResource row.resourceId = some resource ∧
      resource.ownerNamespaceId = team ∧ resource.visibility = .priv ∧
      resource.deleted = false ∧
      (resource.kind = .pack ∨ db.sharedWith resource.id member = false)

namespace Db

variable {db db' : Db} {actor team user member : Uuid}

/-- A member sees all that gives the own subscriptions. -/
theorem membershipSubscription_self {membership : TeamMembership}
    {row : SubscriptionRow}
    (hmember : db.directory.membership team member = some membership) :
    db.membershipSubscription member team member row = true <->
      db.GrantedByMembership team member row := by
  have haccess : db.directory.hasNamespaceAccess member team = true := by
    have hmem := List.mem_of_find?_eq_some hmember
    have hkey := List.find?_some hmember
    unfold Directory.hasNamespaceAccess
    rw [Bool.or_eq_true]
    refine .inr (List.any_eq_true.mpr ⟨membership, hmem, ?_⟩)
    simp only [decide_eq_true_eq] at hkey ⊢
    exact hkey.symm
  unfold membershipSubscription GrantedByMembership
  rw [Bool.and_eq_true, decide_eq_true_eq, Option.any_eq_true]
  refine and_congr_right fun _ => exists_congr fun resource => ?_
  refine and_congr_right fun hfound => ?_
  have hid : resource.id = row.resourceId :=
    (mem_of_findResource_eq_some hfound).2
  constructor
  · intro h
    simp only [Bool.and_eq_true, Bool.or_eq_true, Bool.not_eq_true',
      decide_eq_true_eq] at h
    rcases h with ⟨⟨⟨⟨_, hteam⟩, hpriv⟩, hlive⟩, hgranted⟩
    refine ⟨hteam, hpriv, hlive, hgranted.imp_right fun hunseen => ?_⟩
    simpa [seesShareOf] using hunseen
  · rintro ⟨hteam, hpriv, hlive, hgranted⟩
    have hread : db.canReadResource member resource.id = true := by
      unfold canReadResource
      rw [hid, hfound, Option.any_some, hteam, haccess]
      simp
    rcases hgranted with hpack | hunshared
    · simp [hread, hteam, hpriv, hlive, hpack]
    · simp [hread, hteam, hpriv, hlive, seesShareOf, hunshared]

theorem userId_of_membershipSubscription {row : SubscriptionRow}
    (h : db.membershipSubscription actor team user row = true) :
    row.userId = user := by
  unfold membershipSubscription at h
  rw [Bool.and_eq_true] at h
  exact of_decide_eq_true h.1

/-- The user and the owner of the team may delete a membership. -/
theorem deleteMembership_memberships
    (h : actor = user ∨ db.isTeamOwner actor team = true) :
    (db.deleteMembership actor team user).directory.memberships =
      deleteWhere (fun row => row.teamNamespaceId = team ∧ row.userId = user)
        db.directory.memberships := by
  apply deleteVisible_eq_deleteWhere
  intro row _ hrow
  rcases of_decide_eq_true hrow with ⟨hteam, huser⟩
  rcases h with hself | howner
  · simp [huser, hself]
  · simp [hteam, howner]

end Db

/-- Removing a member leaves what a departure of the member would leave exactly
when the member has no subscription by the membership alone. -/
theorem sameCleanup_iff {db removed left : Db} {owner member team : Uuid}
    {membership : TeamMembership}
    (howner : db.isTeamOwner owner team = true) (hne : member ≠ owner)
    (hmember : db.directory.membership team member = some membership)
    (hremoved : db.endMembership owner team member = .ok removed)
    (hleft : db.endMembership member team member = .ok left) :
    SameCleanup member removed left <->
      forall row, row ∈ db.subscriptions ->
        ¬ db.GrantedByMembership team member row := by
  rw [Db.endMembership_eq_ok hremoved, Db.endMembership_eq_ok hleft]
  have hkept : deleteVisible (fun row => row.userId == owner)
      (db.membershipSubscription owner team member) db.subscriptions =
        db.subscriptions := by
    apply deleteVisible_eq_self
    intro row _ hrow
    rw [Db.userId_of_membershipSubscription hrow]
    exact beq_false_of_ne hne
  have hdeleted : deleteVisible (fun row => row.userId == member)
      (db.membershipSubscription member team member) db.subscriptions =
        deleteWhere (db.membershipSubscription member team member)
          db.subscriptions := by
    apply deleteVisible_eq_deleteWhere
    intro row _ hrow
    rw [Db.userId_of_membershipSubscription hrow]
    exact beq_self_eq_true member
  constructor
  · intro hsame row hrow hgranted
    have hin : row ∈ (deleteWhere
        (db.membershipSubscription member team member)
        db.subscriptions).filter fun row => row.userId = member := by
      have hsubscriptions := hsame.subscriptions
      simp only [Db.deleteMembership, hkept, hdeleted] at hsubscriptions
      rw [← hsubscriptions]
      exact List.mem_filter.mpr ⟨hrow, decide_eq_true hgranted.1⟩
    have hunnamed := (mem_deleteWhere.mp (List.mem_filter.mp hin).1).2
    rw [(Db.membershipSubscription_self hmember).mpr hgranted] at hunnamed
    cases hunnamed
  · intro hnone
    have hself : deleteWhere (db.membershipSubscription member team member)
        db.subscriptions = db.subscriptions := by
      rw [deleteWhere_eq_self_iff]
      intro row hrow
      rw [← Bool.not_eq_true]
      exact fun hnamed => hnone row hrow
        ((Db.membershipSubscription_self hmember).mp hnamed)
    constructor
    · refine Eq.trans (Db.deleteMembership_memberships (.inr ?_))
        (Db.deleteMembership_memberships (.inl rfl)).symm
      exact howner
    · rfl
    · rfl
    · simp only [Db.deleteMembership, hkept, hdeleted, hself]
    · rfl

/-!
## Deleting a pack
-/

def Db.PackRootsCleared (db : Db) (packId : Uuid) : Prop :=
  (forall row, row ∈ db.installationSubscriptions ->
    row.resourceId ≠ packId) ∧
  (forall row, row ∈ db.subscriptions -> row.resourceId ≠ packId) ∧
  forall row, row ∈ db.teamPackAssignments -> row.packResourceId ≠ packId

/-- Every root of the pack is the user's own: an installation that the user has
claimed, the user's account, or a team of which the user is the owner. -/
def Db.PackRootsOwned (db : Db) (user packId : Uuid) : Prop :=
  (forall row, row ∈ db.installationSubscriptions ->
    row.resourceId = packId ->
      db.ownsInstallation user row.installationId = true) ∧
  (forall row, row ∈ db.subscriptions -> row.resourceId = packId ->
    row.userId = user) ∧
  forall row, row ∈ db.teamPackAssignments -> row.packResourceId = packId ->
    db.isTeamOwner user row.teamNamespaceId = true

theorem Db.deletePackRoots_clears_iff {db : Db} {user packId : Uuid} :
    (db.deletePackRoots user packId).PackRootsCleared packId <->
      db.PackRootsOwned user packId := by
  have hclears : forall {α : Type} (rows : List α) (id : α -> Uuid)
      (policy : α -> Bool),
      (forall row, row ∈ deleteWhere
          (fun row => decide (id row = packId) && policy row) rows ->
        id row ≠ packId) <->
      forall row, row ∈ rows -> id row = packId -> policy row = true := by
    intro α rows id policy
    have h : (forall row,
        row ∈ deleteVisible policy (fun row => decide (id row = packId)) rows ->
          decide (id row = packId) = false) <->
        forall row, row ∈ rows -> decide (id row = packId) = true ->
          policy row = true :=
      deleteVisible_clears_iff
    simpa [deleteVisible, Bool.and_comm] using h
  unfold PackRootsCleared PackRootsOwned deletePackRoots
  refine and_congr (hclears _ _ _) (and_congr ?_ (hclears _ _ _))
  simpa using hclears db.subscriptions SubscriptionRow.resourceId
    fun row => decide (row.userId = user)

theorem Registry.deletePack_roots {self : Registry} {db db' : Db}
    {userId : Uuid} {request : ResourceLifecycleRequest}
    {outcome : PackLifecycleResponse}
    (h : self.deletePack userId request db = .ok (.ok outcome, db'))
    (hfresh : Db.findOperation db.packOperations userId request.operationId =
      none) :
    db'.PackRootsCleared request.resourceId <->
      db.PackRootsOwned userId request.resourceId := by
  rcases bind_eq_ok.mp h with ⟨authority, hauthority, h⟩
  rcases Directory.userAuthority_eq_ok hauthority with ⟨_, _, _, huser, _⟩
  rcases bind_eq_ok.mp h with ⟨_, _, h⟩
  rcases bind_eq_ok.mp h with ⟨replay, hreplay, h⟩
  rw [huser] at hreplay h
  unfold Db.replayPackOperation at hreplay
  rw [hfresh] at hreplay
  cases hreplay
  rcases bind_eq_ok.mp h with ⟨target, _, h⟩
  rcases bind_eq_ok.mp h with ⟨_, _, h⟩
  rcases bind_eq_ok.mp h with ⟨pack, hpack, h⟩
  rcases Db.loadOwnedPackForUpdate_eq_ok hpack with ⟨row, hfound, _⟩
  rcases bind_eq_ok.mp h with ⟨⟨advanced, current, caught⟩, hcaught, h⟩
  have hstate := (Db.lockAndCatchUpPack_eq_ok hcaught).2.2
  cases advanced with
  | some generation => cases h
  | none =>
    cases hstate rfl
    rcases bind_eq_ok.mp h with ⟨⟨answer, deleted⟩, hdeleted, h⟩
    cases h
    rcases bind_eq_ok.mp hdeleted with ⟨_, _, hdeleted⟩
    rcases bind_eq_ok.mp hdeleted with ⟨generation, _, hdeleted⟩
    rcases bind_eq_ok.mp hdeleted with ⟨recorded, hrecorded, hdeleted⟩
    rcases Db.recordPackOperation_eq_ok hrecorded with ⟨operations, rfl⟩
    cases hdeleted
    rw [← hfound.id, ← huser]
    exact Db.deletePackRoots_clears_iff

/-!
## Both cleanups
-/

namespace Registry

variable {self : Registry}

theorem removeTeamMember_sameCleanup_iff {db removed left : Db}
    {owner member : Uuid} {request : TeamMemberRemoveRequest}
    {departure : TeamLeaveRequest} {outcome : TeamMutationResponse}
    {departed : TeamLeaveResponse}
    (hmember : db.directory.userBySlug request.member = some member)
    (hteam : departure.team = request.team)
    (hremove : self.removeTeamMember owner request db = .ok (outcome, removed))
    (hremoveFresh : Db.findOperation db.teamOperations owner
      request.operationId = none)
    (hleave : self.leaveTeam member departure db = .ok (departed, left))
    (hleaveFresh : Db.findOperation db.teamOperations member
      departure.operationId = none) :
    SameCleanup member removed left <->
      forall team, db.directory.namespaceBySlug request.team = some team ->
        forall row, row ∈ db.subscriptions ->
          ¬ db.GrantedByMembership team.id member row := by
  rcases removeTeamMember_eq_ok hremove hremoveFresh with
    ⟨space, owning, found, membership, ended, operations, hspace, howning,
      howner, hfound, hmembership, hother, hended, rfl⟩
  rcases leaveTeam_eq_ok hleave hleaveFresh with
    ⟨space', membership', ended', operations', hspace', hmembership', hended',
      rfl⟩
  rw [hmember] at hfound
  cases hfound
  rw [hteam, hspace] at hspace'
  cases hspace'
  have hne : member ≠ owner := by
    rintro rfl
    rw [howning] at hmembership
    cases hmembership
    exact hother howner
  have hisOwner : db.isTeamOwner owner space.id = true := by
    refine List.any_eq_true.mpr ⟨owning, List.mem_of_find?_eq_some howning, ?_⟩
    have hkey := List.find?_some howning
    simp only [decide_eq_true_eq] at hkey ⊢
    exact ⟨hkey.1, hkey.2, howner⟩
  have hsame := sameCleanup_iff hisOwner hne hmembership hended hended'
  constructor
  · intro h team hfound
    rw [hspace] at hfound
    cases hfound
    exact hsame.mp
      ⟨h.memberships, h.workspaces, h.conflicts, h.subscriptions,
        h.installationSubscriptions⟩
  · intro h
    have hended := hsame.mpr (h space hspace)
    exact ⟨hended.memberships, hended.workspaces, hended.conflicts,
      hended.subscriptions, hended.installationSubscriptions⟩

/-- The owner of a team cleans up like a departing member exactly when the
member has no subscription by the membership alone, and the deletion of a pack
takes all its roots along exactly when they belong to the user. -/
theorem cleanup_complete_iff {db removed left : Db}
    {owner member : Uuid} {request : TeamMemberRemoveRequest}
    {departure : TeamLeaveRequest} {outcome : TeamMutationResponse}
    {departed : TeamLeaveResponse}
    (hmember : db.directory.userBySlug request.member = some member)
    (hteam : departure.team = request.team)
    (hremove : self.removeTeamMember owner request db = .ok (outcome, removed))
    (hremoveFresh : Db.findOperation db.teamOperations owner
      request.operationId = none)
    (hleave : self.leaveTeam member departure db = .ok (departed, left))
    (hleaveFresh : Db.findOperation db.teamOperations member
      departure.operationId = none)
    {packDb deleted : Db} {user : Uuid} {deletion : ResourceLifecycleRequest}
    {answer : PackLifecycleResponse}
    (hdelete : self.deletePack user deletion packDb =
      .ok (.ok answer, deleted))
    (hdeleteFresh : Db.findOperation packDb.packOperations user
      deletion.operationId = none) :
    (SameCleanup member removed left <->
      forall team, db.directory.namespaceBySlug request.team = some team ->
        forall row, row ∈ db.subscriptions ->
          ¬ db.GrantedByMembership team.id member row) ∧
    (deleted.PackRootsCleared deletion.resourceId <->
      packDb.PackRootsOwned user deletion.resourceId) := by
  constructor
  · exact removeTeamMember_sameCleanup_iff hmember hteam hremove hremoveFresh
      hleave hleaveFresh
  · exact deletePack_roots hdelete hdeleteFresh

end Registry

/-!
A member is subscribed to a private pack of the team and to a pack of the owner.
-/

namespace Sample

def crewTeam : Team :=
  ⟨uuid 30, false⟩

theorem crewTeam_key : ([crewTeam].map Team.namespaceId).Nodup := by
  decide

def crewUsers : Directory :=
  { twoUsers with
    namespaces := twoUsers.namespaces ++ [⟨uuid 30, "crew".toList, .team⟩]
    teams := [crewTeam]
    memberships :=
      [⟨uuid 30, amy.id, .owner⟩, ⟨uuid 30, bob.id, .member⟩]
    namespaceKey := by decide
    slugUnique := by decide
    teamKey := crewTeam_key
    membershipKey := by decide
    usersPersonal := by decide
    teamsTeam := by decide }

def cleanupHashes : List (Uuid × RequestHash) :=
  [ (uuid 60, digestOfNat
      0x319be71978d93edee629b8f91b91760d89bb73db8209c72ab5e96c3576bc60c4),
    (uuid 61, digestOfNat
      0x45ee52b6b7f9f59b4389a0cf76a60700375828e9c56b0a4098c915fdd61bd01a),
    (uuid 62, digestOfNat
      0x70b83328f2057ab157e122dbbd67bb0ad43824608b2f3ec5e3bedb0aec9a5981) ]

def cleanupHashOf (operation : UInt8) : RequestHash :=
  (cleanupHashes.lookup (uuid operation)).getD (Vector.replicate 32 0)

def cleanup : Registry :=
  registryOf [] cleanupHashes

def packRow (id owner : UInt8) (slug : String) (visibility : Visibility) :
    ResourceRow where
  id := uuid id
  ownerNamespaceId := uuid owner
  slug := slug.toList
  kind := .pack
  visibility
  metadata := Registry.emptyPackMetadata
  generation := .one
  latestReleaseVersion := none
  deprecated := false
  deprecationReplacement := none
  deleted := false

def crewed : Db :=
  { directory := crewUsers
    resources := [packRow 40 30 "tools" .priv, packRow 41 2 "kit" .pub]
    packStates := [⟨uuid 40, .one⟩, ⟨uuid 41, .one⟩]
    packRevisions := [⟨uuid 40, .one, none⟩, ⟨uuid 41, .one, none⟩]
    subscriptions :=
      [ { resourceId := uuid 40, userId := bob.id, retainOnDelete := false },
        { resourceId := uuid 41, userId := bob.id, retainOnDelete := false } ] }

def bobRemoval : TeamMemberRemoveRequest where
  operationId := operationId 60
  team := "crew".toList
  member := "bob".toList
  requestHash := cleanupHashOf 60

def bobDeparture : TeamLeaveRequest where
  operationId := operationId 61
  team := "crew".toList
  requestHash := cleanupHashOf 61

def kitDeletion : ResourceLifecycleRequest where
  operationId := operationId 62
  resourceId := uuid 41
  expectedGeneration := 1
  requestHash := cleanupHashOf 62

/-- The subscription of `bob` to the pack is still there. -/
def keepsPack (db : Db) (pack : UInt8) : Bool :=
  db.subscriptions.any fun row =>
    row.userId = bob.id ∧ row.resourceId = uuid pack

theorem exists_removed :
    exists outcome removed,
      cleanup.removeTeamMember amy.id bobRemoval crewed =
        .ok (outcome, removed) ∧ keepsPack removed 40 = true := by
  have h : (cleanup.removeTeamMember amy.id bobRemoval crewed).toOption.any
      (fun answer => keepsPack answer.2 40) = true := by
    decide +kernel
  cases hanswer : cleanup.removeTeamMember amy.id bobRemoval crewed with
  | error _ => simp [hanswer, Except.toOption] at h
  | ok answer =>
      simp only [hanswer, Except.toOption, Option.any_some] at h
      exact ⟨answer.1, answer.2, rfl, h⟩

theorem exists_left :
    exists outcome left,
      cleanup.leaveTeam bob.id bobDeparture crewed = .ok (outcome, left) ∧
        keepsPack left 40 = false := by
  have h : (cleanup.leaveTeam bob.id bobDeparture crewed).toOption.any
      (fun answer => !keepsPack answer.2 40) = true := by
    decide +kernel
  cases hanswer : cleanup.leaveTeam bob.id bobDeparture crewed with
  | error _ => simp [hanswer, Except.toOption] at h
  | ok answer =>
      simp only [hanswer, Except.toOption, Option.any_some,
        Bool.not_eq_true'] at h
      exact ⟨answer.1, answer.2, rfl, h⟩

theorem exists_deleted :
    exists outcome deleted,
      cleanup.deletePack amy.id kitDeletion crewed =
        .ok (.ok outcome, deleted) ∧ keepsPack deleted 41 = true := by
  have h : (cleanup.deletePack amy.id kitDeletion crewed).toOption.any
      (fun answer => answer.1.toOption.isSome && keepsPack answer.2 41) =
        true := by
    decide +kernel
  cases hanswer : cleanup.deletePack amy.id kitDeletion crewed with
  | error _ => simp [hanswer, Except.toOption] at h
  | ok answer =>
      rcases answer with ⟨response, deleted⟩
      cases response with
      | error _ => simp [hanswer, Except.toOption] at h
      | ok response =>
          simp only [hanswer, Except.toOption, Option.any_some,
            Option.isSome_some, Bool.true_and] at h
          exact ⟨response, deleted, rfl, h⟩

end Sample

/-- The owner cannot take the member's subscription to the private pack of the
team away, and the deleted pack keeps a subscriber. -/
theorem Registry.cleanup_incomplete :
    exists outcome removed departed left answer deleted,
      Sample.cleanup.removeTeamMember Sample.amy.id Sample.bobRemoval
          Sample.crewed = .ok (outcome, removed) ∧
      Sample.cleanup.leaveTeam Sample.bob.id Sample.bobDeparture
          Sample.crewed = .ok (departed, left) ∧
      Sample.cleanup.deletePack Sample.amy.id Sample.kitDeletion
          Sample.crewed = .ok (.ok answer, deleted) ∧
      ¬ SameCleanup Sample.bob.id removed left ∧
      ¬ deleted.PackRootsCleared (Sample.uuid 41) := by
  rcases Sample.exists_removed with ⟨outcome, removed, hremove, hkept⟩
  rcases Sample.exists_left with ⟨departed, left, hleave, hlost⟩
  rcases Sample.exists_deleted with ⟨answer, deleted, hdelete, hrooted⟩
  refine ⟨outcome, removed, departed, left, answer, deleted, hremove, hleave,
    hdelete, ?_, ?_⟩
  · intro hsame
    rcases List.any_eq_true.mp hkept with ⟨row, hrow, hpack⟩
    have hbob : row ∈ removed.subscriptions.filter fun row =>
        row.userId = Sample.bob.id :=
      List.mem_filter.mpr ⟨hrow, decide_eq_true (of_decide_eq_true hpack).1⟩
    rw [hsame.subscriptions] at hbob
    have hkeeps : Sample.keepsPack left 40 = true :=
      List.any_eq_true.mpr ⟨row, (List.mem_filter.mp hbob).1, hpack⟩
    rw [hlost] at hkeeps
    cases hkeeps
  · intro hcleared
    rcases List.any_eq_true.mp hrooted with ⟨row, hrow, hpack⟩
    exact hcleared.2.1 row hrow (of_decide_eq_true hpack).2

theorem Registry.cleanup_complete_iff_crew :
    exists removed left deleted : Db,
      (SameCleanup Sample.bob.id removed left <->
        forall team, Sample.crewed.directory.namespaceBySlug
            Sample.bobRemoval.team = some team ->
          forall row, row ∈ Sample.crewed.subscriptions ->
            ¬ Sample.crewed.GrantedByMembership team.id Sample.bob.id row) ∧
      (deleted.PackRootsCleared Sample.kitDeletion.resourceId <->
        Sample.crewed.PackRootsOwned Sample.amy.id
          Sample.kitDeletion.resourceId) := by
  rcases Sample.exists_removed with ⟨outcome, removed, hremove, _⟩
  rcases Sample.exists_left with ⟨departed, left, hleave, _⟩
  rcases Sample.exists_deleted with ⟨answer, deleted, hdelete, _⟩
  exact ⟨removed, left, deleted,
    Registry.cleanup_complete_iff (by decide +kernel) rfl hremove rfl hleave
      rfl hdelete rfl⟩

end Denju
