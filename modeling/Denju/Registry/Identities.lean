import Denju.Registry.Accounts

/-!
# Identities and members

A device claims an identity, or signs in to one that exists.  Users found
teams, join them, and change what their members may do.  Passwords, sessions,
invites and recorded answers are kept beside the tables of this development:
the transactions here begin where these have been checked.
-/

namespace Denju

open Lib

structure IdentitySessionResponse where
  userId : Uuid
  namespaceId : Uuid
  authorPrincipalId : AuthorPrincipalId
  username : Text
  sessionId : Uuid
deriving DecidableEq

/-!
## New rows of the directory
-/

/-- The link between a user and the own author principal. -/
def User.ownLink (user : User) : AuthorLink where
  authorPrincipalId := user.authorPrincipalId
  userId := user.id

namespace Directory

variable (directory : Directory)

/-- The keys refuse a namespace with an identifier or a slug in use. -/
def insertNamespace (row : Namespace) : Except ApiError Directory :=
  if h : row.id ∉ directory.namespaces.map Namespace.id ∧
      row.slug ∉ directory.namespaces.map Namespace.slug then
    .ok { directory with
      namespaces := directory.namespaces ++ [row]
      namespaceKey := nodup_concat directory.namespaceKey h.1
      slugUnique := nodup_concat directory.slugUnique h.2
      usersPersonal := fun user huser =>
        exists_mem_concat (directory.usersPersonal user huser)
      teamsTeam := fun team hteam =>
        exists_mem_concat (directory.teamsTeam team hteam) }
  else .error (internalApiError "namespaces_pkey")

/-- The user is new in every column, and so are both author principals, the
own one and the one of the device. -/
def AdmitsUser (row : User) (device : AuthorPrincipalId) : Prop :=
  row.id ∉ directory.users.map User.id ∧
    row.namespaceId ∉ directory.users.map User.namespaceId ∧
    row.authorPrincipalId ∉
      directory.authorLinks.map AuthorLink.authorPrincipalId ∧
    device ∉ (directory.authorLinks ++ [row.ownLink]).map
      AuthorLink.authorPrincipalId ∧
    exists space, space ∈ directory.namespaces ∧ space.id = row.namespaceId ∧
      space.kind = .user

instance decidableAdmitsUser (row : User) (device : AuthorPrincipalId) :
    Decidable (directory.AdmitsUser row device) := by
  unfold AdmitsUser
  infer_instance

variable {directory} in
theorem AdmitsUser.linked {row : User} {device : AuthorPrincipalId}
    (user : User) (huser : user ∈ directory.users ++ [row]) :
    (⟨user.authorPrincipalId, user.id⟩ : AuthorLink) ∈
      directory.authorLinks ++ [row.ownLink] ++ [⟨device, row.id⟩] := by
  rcases List.mem_append.mp huser with hold | hnew
  · exact List.mem_append_left _
      (List.mem_append_left _ (directory.usersLinked user hold))
  · rw [List.mem_singleton.mp hnew]
    exact List.mem_append_left _
      (List.mem_append_right _ (List.mem_singleton_self _))

variable {directory} in
theorem AdmitsUser.personal {row : User} {device : AuthorPrincipalId}
    (h : directory.AdmitsUser row device) (user : User)
    (huser : user ∈ directory.users ++ [row]) :
    exists space, space ∈ directory.namespaces ∧
      space.id = user.namespaceId ∧ space.kind = .user := by
  rcases List.mem_append.mp huser with hold | hnew
  · exact directory.usersPersonal user hold
  · rw [List.mem_singleton.mp hnew]
    exact h.2.2.2.2

/-- A new user, with the links of both author principals. -/
def insertUser (row : User) (device : AuthorPrincipalId) :
    Except ApiError Directory :=
  if h : directory.AdmitsUser row device then
    .ok { directory with
      users := directory.users ++ [row]
      authorLinks := directory.authorLinks ++ [row.ownLink] ++
        [⟨device, row.id⟩]
      userKey := nodup_concat directory.userKey h.1
      userNamespaceUnique := nodup_concat directory.userNamespaceUnique h.2.1
      authorKey := nodup_concat (nodup_concat directory.authorKey h.2.2.1)
        h.2.2.2.1
      usersLinked := AdmitsUser.linked
      usersPersonal := AdmitsUser.personal h }
  else .error (internalApiError "users_pkey")

/-- The namespace is one of a team that has no settings yet. -/
def AdmitsTeam (row : Team) : Prop :=
  row.namespaceId ∉ directory.teams.map Team.namespaceId ∧
    exists space, space ∈ directory.namespaces ∧ space.id = row.namespaceId ∧
      space.kind = .team

instance decidableAdmitsTeam (row : Team) :
    Decidable (directory.AdmitsTeam row) := by
  unfold AdmitsTeam
  infer_instance

variable {directory} in
theorem AdmitsTeam.space {row : Team} (h : directory.AdmitsTeam row)
    (team : Team) (hteam : team ∈ directory.teams ++ [row]) :
    exists space, space ∈ directory.namespaces ∧
      space.id = team.namespaceId ∧ space.kind = .team := by
  rcases List.mem_append.mp hteam with hold | hnew
  · exact directory.teamsTeam team hold
  · rw [List.mem_singleton.mp hnew]
    exact h.2

def insertTeam (row : Team) : Except ApiError Directory :=
  if h : directory.AdmitsTeam row then
    .ok { directory with
      teams := directory.teams ++ [row]
      teamKey := nodup_concat directory.teamKey h.1
      teamsTeam := AdmitsTeam.space h }
  else .error (internalApiError "teams_pkey")

def insertMembership (row : TeamMembership) : Except ApiError Directory :=
  if h : (row.teamNamespaceId, row.userId) ∉ directory.memberships.map
      fun other => (other.teamNamespaceId, other.userId) then
    .ok { directory with
      memberships := directory.memberships ++ [row]
      membershipKey := nodup_concat directory.membershipKey h }
  else .error (internalApiError "team_memberships_pkey")

/-!
## Changed rows of the directory
-/

def setRole (team user : Uuid) (role : TeamRole) : Directory :=
  { directory with
    memberships := updateWhere
      (fun row => row.teamNamespaceId = team ∧ row.userId = user)
      (fun row => { row with role }) directory.memberships
    membershipKey := nodup_updateWhere directory.membershipKey fun _ => rfl }

variable {directory} in
theorem space_of_updatedTeam {p : Team -> Bool} {membersCanPublish : Bool}
    (team : Team) (hteam : team ∈ updateWhere p
      (fun row => { row with membersCanPublish }) directory.teams) :
    exists space, space ∈ directory.namespaces ∧
      space.id = team.namespaceId ∧ space.kind = .team := by
  rcases mem_updateWhere.mp hteam with ⟨old, hold, rfl⟩
  split
  · exact directory.teamsTeam old hold
  · exact directory.teamsTeam old hold

def setMembersCanPublish (team : Uuid) (membersCanPublish : Bool) :
    Directory :=
  { directory with
    teams := updateWhere (fun row => row.namespaceId = team)
      (fun row => { row with membersCanPublish }) directory.teams
    teamKey := nodup_updateWhere directory.teamKey fun _ => rfl
    teamsTeam := space_of_updatedTeam }

/-!
## Devices
-/

def linkInstallationToUser (installation userId : Uuid) :
    Except ApiError Directory := do
  let row <- okOr
    (directory.installations.find? fun row => row.id = installation)
    (ApiError.new .unauthorized "installation is unavailable")
  match row.userId with
  | some existing => do
      ensure (existing == userId)
        (ApiError.new .operationConflict
          "this installation is already attributed to another identity")
      return directory
  | none =>
      return { directory with
        installations := updateWhere (fun row => row.id = installation)
          (fun row => { row with userId := some userId })
          directory.installations }

variable {directory} in
theorem linked_of_moved {device : AuthorPrincipalId} {userId : Uuid}
    (h : forall user, user ∈ directory.users ->
      user.authorPrincipalId ≠ device) (user : User)
    (huser : user ∈ directory.users) :
    (⟨user.authorPrincipalId, user.id⟩ : AuthorLink) ∈
      updateWhere (fun row => row.authorPrincipalId = device)
        (fun row => { row with userId }) directory.authorLinks := by
  apply mem_updateWhere.mpr
  refine ⟨_, directory.usersLinked user huser, ?_⟩
  rw [if_neg]
  simpa using h user huser

/-- The author principal of a device, which is no user's own, follows the user
who signs in. -/
def linkInstallationAuthorToUser (device : AuthorPrincipalId)
    (userId : Uuid) : Except ApiError Directory :=
  if hown : forall user, user ∈ directory.users ->
      user.authorPrincipalId ≠ device then
    if hnew : device ∉
        directory.authorLinks.map AuthorLink.authorPrincipalId then
      .ok { directory with
        authorLinks := directory.authorLinks ++ [⟨device, userId⟩]
        authorKey := nodup_concat directory.authorKey hnew
        usersLinked := fun user huser =>
          List.mem_append_left _ (directory.usersLinked user huser) }
    else
      .ok { directory with
        authorLinks := updateWhere (fun row => row.authorPrincipalId = device)
          (fun row => { row with userId }) directory.authorLinks
        authorKey := nodup_updateWhere directory.authorKey fun _ => rfl
        usersLinked := linked_of_moved hown }
  else .error (internalApiError "author_principals_kind_check")

end Directory

namespace Registry

/-!
## Claiming an identity and signing in
-/

/-- The transaction that registers a device. -/
def createInstallation (newInstallationId : Uuid) (db : Db) :
    Except ApiError (Uuid × Db) := do
  ensure ((db.directory.installations.find? fun row =>
      row.id = newInstallationId).isNone)
    (internalApiError "installations_pkey")
  return (newInstallationId, { db with
    directory := { db.directory with
      installations := db.directory.installations ++
        [⟨newInstallationId, none⟩] } })

/-- The transaction that claims an identity for a device. -/
def claimIdentity (namespaceId userId sessionId : Uuid)
    (userAuthor device : AuthorPrincipalId) (installation : Uuid)
    (username : Text) (db : Db) :
    Except ApiError (IdentitySessionResponse × Db) := do
  let row <- okOr
    (db.directory.installations.find? fun row => row.id = installation)
    (internalApiError "no rows returned")
  ensure row.userId.isNone
    (ApiError.new .operationConflict
      "this installation is already linked to an identity")
  ensure (db.directory.namespaceBySlug username).isNone
    (ApiError.new .operationConflict
      ("@" ++ String.ofList username ++ " is already claimed or reserved"))
  let directory <- db.directory.insertNamespace
    { id := namespaceId, slug := username, kind := .user }
  let directory <- directory.insertUser
    { id := userId, namespaceId, authorPrincipalId := userAuthor } device
  let directory <- directory.linkInstallationToUser installation userId
  let db := { db with directory }
  return (
    { userId
      namespaceId
      authorPrincipalId := userAuthor
      username := '@' :: username
      sessionId }, db.adoptInstallationSubscriptions installation userId)

/-- The transaction of a device that signs in to an identity, or resets it with
the recovery secret. -/
def login (sessionId : Uuid) (device : AuthorPrincipalId)
    (installation : Uuid) (username : Text) (db : Db) :
    Except ApiError (IdentitySessionResponse × Db) := do
  let userId <- okOr (db.directory.userBySlug username)
    (ApiError.new .unauthorized "invalid identity credential")
  let authority <- db.directory.userAuthority userId
  let directory <- db.directory.linkInstallationToUser installation userId
  let directory <- directory.linkInstallationAuthorToUser device userId
  let db := { db with directory }
  return (
    { userId
      namespaceId := authority.namespaceId
      authorPrincipalId := authority.authorPrincipalId
      username := '@' :: username
      sessionId }, db.adoptInstallationSubscriptions installation userId)

/-!
## Teams
-/

def createTeam (namespaceId userId : Uuid) (slug : Text) (db : Db) :
    Except ApiError (TeamMutationResponse × Db) := do
  let authority <- db.directory.userAuthority userId
  ensure (db.directory.namespaceBySlug slug).isNone
    (ApiError.new .generationConflict
      ("@" ++ String.ofList slug ++ " is already in use"))
  let directory <- db.directory.insertNamespace
    { id := namespaceId, slug, kind := .team }
  let directory <- directory.insertTeam
    { namespaceId, membersCanPublish := false }
  let directory <- directory.insertMembership
    { teamNamespaceId := namespaceId
      userId := authority.userId
      role := .owner }
  return (teamMutationSummary namespaceId slug .owner false true,
    { db with directory })

/-- The transaction of a user who joins with an invite to a role in a team. -/
def joinTeam (userId invitedTo : Uuid) (role : TeamRole) (db : Db) :
    Except ApiError (TeamMutationResponse × Db) := do
  let authority <- db.directory.userAuthority userId
  let invalid := ApiError.new .notFound "team invite is invalid"
  let space <- okOr (db.directory.namespaceById invitedTo) invalid
  let team <- okOr (db.directory.team invitedTo) invalid
  ensure (db.directory.membership invitedTo authority.userId).isNone
    (ApiError.new .invalidRequest "identity is already a team member")
  let directory <- db.directory.insertMembership
    { teamNamespaceId := invitedTo, userId := authority.userId, role }
  return (
    teamMutationSummary invitedTo space.slug role team.membersCanPublish true,
    { db with directory })

def changeTeamMemberRole (userId : Uuid) (slug member : Text)
    (role : TeamRole) (db : Db) :
    Except ApiError (TeamMutationResponse × Db) := do
  let separate := ApiError.new .invalidRequest
    "owner transfer is a separate operation"
  ensure (decide (role ≠ .owner)) separate
  let authority <- db.directory.userAuthority userId
  let (team, actorRole, membersCanPublish) <-
    db.teamMembershipForUpdate authority.userId slug
  ensure (decide (actorRole = .owner))
    (ApiError.new .unauthorized "only the team owner may change roles")
  let target <- okOr (db.directory.userBySlug member)
    (ApiError.new .notFound "user not found")
  let membership <- okOr (db.directory.membership team target)
    (ApiError.new .notFound "team member not found")
  ensure (decide (membership.role ≠ .owner)) separate
  let changed := decide (membership.role ≠ role)
  let summary :=
    teamMutationSummary team slug actorRole membersCanPublish changed
  if changed then
    let db := { db with directory := db.directory.setRole team target role }
    if role = .member ∧ membersCanPublish = false then
      let db <- db.removeTeamWorkspacesForUser authority.userId team target
      return (summary, db)
    else return (summary, db)
  else return (summary, db)

def updateTeamSettings (userId : Uuid) (slug : Text)
    (membersCanPublish : Bool) (db : Db) :
    Except ApiError (TeamMutationResponse × Db) := do
  let authority <- db.directory.userAuthority userId
  let (team, actorRole, current) <-
    db.teamMembershipForUpdate authority.userId slug
  ensure (decide (actorRole = .owner))
    (ApiError.new .unauthorized
      "only the team owner may change team settings")
  let changed := current != membersCanPublish
  let summary :=
    teamMutationSummary team slug actorRole membersCanPublish changed
  if changed then
    let db := { db with
      directory := db.directory.setMembersCanPublish team membersCanPublish }
    if membersCanPublish then return (summary, db)
    else
      let members := (db.directory.memberships.filter fun row =>
        row.teamNamespaceId = team ∧ row.role = .member).map
          TeamMembership.userId
      let db <- members.foldlM
        (fun db member =>
          db.removeTeamWorkspacesForUser authority.userId team member) db
      return (summary, db)
  else return (summary, db)

end Registry

/-!
## Changes of accounts
-/

/-- A change of the accounts and teams of a registry.  The identifiers that are
drawn at random, and the rows that the calls have found beside the tables, are
part of it. -/
inductive AccountChange where
  | createInstallation (newInstallationId : Uuid)
  | claimIdentity (namespaceId userId sessionId : Uuid)
      (userAuthor device : AuthorPrincipalId) (installation : Uuid)
      (username : Text)
  | login (sessionId : Uuid) (device : AuthorPrincipalId)
      (installation : Uuid) (username : Text)
  | provision (userId : Uuid)
  | createTeam (namespaceId userId : Uuid) (slug : Text)
  | joinTeam (userId invitedTo : Uuid) (role : TeamRole)
  | changeRole (userId : Uuid) (slug member : Text) (role : TeamRole)
  | updateSettings (userId : Uuid) (slug : Text) (membersCanPublish : Bool)
  | removeMember (userId : Uuid) (request : TeamMemberRemoveRequest)
  | leaveTeam (userId : Uuid) (request : TeamLeaveRequest)
  | deleteTeam (userId : Uuid) (slug : Text)
  | deleteAccount (userId : Uuid)
  | setTopics (userId resourceId : Uuid) (expectedGeneration : UInt64)

namespace Service

variable {registry : Registry}

def changeAccount (service : Service registry) :
    AccountChange -> Service registry
  | .createInstallation newInstallationId =>
      service.settle
        (Registry.createInstallation newInstallationId service.db)
  | .claimIdentity namespaceId userId sessionId userAuthor device installation
      username =>
      service.settle (Registry.claimIdentity namespaceId userId sessionId
        userAuthor device installation username service.db)
  | .login sessionId device installation username =>
      service.settle
        (Registry.login sessionId device installation username service.db)
  | .provision userId =>
      { service with db := service.db.provisionTeamWorkspaces userId }
  | .createTeam namespaceId userId slug =>
      service.settle (Registry.createTeam namespaceId userId slug service.db)
  | .joinTeam userId invitedTo role =>
      service.settle (Registry.joinTeam userId invitedTo role service.db)
  | .changeRole userId slug member role =>
      service.settle
        (Registry.changeTeamMemberRole userId slug member role service.db)
  | .updateSettings userId slug membersCanPublish =>
      service.settle
        (Registry.updateTeamSettings userId slug membersCanPublish service.db)
  | .removeMember userId request =>
      service.settle (registry.removeTeamMember userId request service.db)
  | .leaveTeam userId request =>
      service.settle (registry.leaveTeam userId request service.db)
  | .deleteTeam userId slug =>
      service.settle (Registry.deleteTeam userId slug service.db)
  | .deleteAccount userId =>
      service.settle (Registry.deleteAccount userId service.db)
  | .setTopics userId resourceId expectedGeneration =>
      service.settle (Registry.setResourceTopics userId resourceId
        expectedGeneration service.db)

end Service

/-!
## What happens to a registry
-/

/-- An operation, a change of the accounts, or a transaction of calls that are
no part of this development. -/
inductive Event where
  | operation (operation : Operation)
  | account (change : AccountChange)
  | beside (db : Db)

/-- Nothing changes but tables beside the directory, the resources, their
content and the subscriptions. -/
structure Db.Beside (db db' : Db) : Prop where
  directory : db'.directory = db.directory
  resources : db'.resources = db.resources
  workspaces : db'.workspaces = db.workspaces
  snapshots : db'.snapshots = db.snapshots
  revisions : db'.revisions = db.revisions
  releases : db'.releases = db.releases
  subscriptions : db'.subscriptions = db.subscriptions
  devices : db'.installationSubscriptions = db.installationSubscriptions

/-- The user on whose behalf a call has read. -/
def Plan.authority {ext : Externals} : Plan ext -> UserAuthority
  | .importing plan => plan.authority
  | .save plan => plan.authority
  | .restore plan => plan.authority
  | .rename (.personal plan) => plan.authority
  | .rename (.team plan) => plan.authority

namespace Site

variable {registry : Registry}

/-- The identifier of a namespace is not one that a resource or a waiting call
knows. -/
def Unknown (site : Site registry) (namespaceId : Uuid) : Prop :=
  (forall row, row ∈ site.db.resources ->
    row.ownerNamespaceId ≠ namespaceId) ∧
      forall plan, plan ∈ site.service.plans ->
        plan.authority.namespaceId ≠ namespaceId

/-- The identifiers of the registry are drawn at random, and transactions that
are no part of this development leave its tables alone. -/
def Plausible (site : Site registry) : Event -> Prop
  | .account (.claimIdentity namespaceId _ _ _ _ _ _) =>
      site.Unknown namespaceId
  | .beside db => site.db.Beside db
  | _ => True

def evolve (site : Site registry) : Event -> Site registry
  | .operation operation => site.operate operation
  | .account change =>
      { site with service := site.service.changeAccount change }
  | .beside db => { site with service := { site.service with db } }

/-- One event that may happen. -/
abbrev Evolves : Site registry -> Event -> Site registry -> Prop :=
  Guarded Plausible evolve

end Site
end Denju
