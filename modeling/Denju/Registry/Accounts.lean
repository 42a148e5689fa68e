import Denju.Registry.Operations
import Denju.Registry.Tables
import Denju.Registry.TeamCleanup

/-!
# Accounts and teams

A device that signs in hands its subscriptions to the account.  An account or a
team that is deleted leaves its resources behind as tombstones, which name the
owner that they had, and its namespace is gone.
-/

namespace Denju

open Lib

namespace Directory

/-- Nobody has an account yet. -/
def empty : Directory where
  namespaces := []
  users := []
  teams := []
  memberships := []
  authorLinks := []
  namespaceKey := List.nodup_nil
  slugUnique := List.nodup_nil
  userKey := List.nodup_nil
  userNamespaceUnique := List.nodup_nil
  teamKey := List.nodup_nil
  membershipKey := List.nodup_nil
  authorKey := List.nodup_nil
  usersLinked := fun _ huser => by cases huser
  usersPersonal := fun _ huser => by cases huser
  teamsTeam := fun _ hteam => by cases hteam

/-- The directory without a namespace, and without the user or the team that
it belonged to. -/
def deleteNamespace (directory : Directory) (id : Uuid) : Directory :=
  { directory with
    namespaces := deleteWhere (fun row => row.id = id) directory.namespaces
    users := deleteWhere (fun row => row.namespaceId = id) directory.users
    teams := deleteWhere (fun row => row.namespaceId = id) directory.teams
    memberships := deleteWhere (fun row => row.teamNamespaceId = id)
      directory.memberships
    namespaceKey := directory.namespaceKey.sublist
      (List.filter_sublist.map _)
    slugUnique := directory.slugUnique.sublist (List.filter_sublist.map _)
    userKey := directory.userKey.sublist (List.filter_sublist.map _)
    userNamespaceUnique := directory.userNamespaceUnique.sublist
      (List.filter_sublist.map _)
    teamKey := directory.teamKey.sublist (List.filter_sublist.map _)
    membershipKey := directory.membershipKey.sublist
      (List.filter_sublist.map _)
    usersLinked := fun user huser =>
      directory.usersLinked user (mem_deleteWhere.mp huser).1
    usersPersonal := fun user huser => by
      rcases mem_deleteWhere.mp huser with ⟨hmem, hother⟩
      rcases directory.usersPersonal user hmem with ⟨row, hrow, hid, hkind⟩
      refine ⟨row, mem_deleteWhere.mpr ⟨hrow, ?_⟩, hid, hkind⟩
      rw [hid]
      exact hother
    teamsTeam := fun team hteam => by
      rcases mem_deleteWhere.mp hteam with ⟨hmem, hother⟩
      rcases directory.teamsTeam team hmem with ⟨row, hrow, hid, hkind⟩
      refine ⟨row, mem_deleteWhere.mpr ⟨hrow, ?_⟩, hid, hkind⟩
      rw [hid]
      exact hother }

/-- The directory without the memberships of a user. -/
def deleteMemberships (directory : Directory) (user : Uuid) : Directory :=
  { directory with
    memberships := deleteWhere (fun row => row.userId = user)
      directory.memberships
    membershipKey := directory.membershipKey.sublist
      (List.filter_sublist.map _) }

end Directory

namespace Db

variable (db : Db)

/-!
## Signing in
-/

/-- The account takes the subscriptions of a device, except those that it has
already. -/
def adoptInstallationSubscriptions (installation user : Uuid) : Db :=
  { db with
    subscriptions := db.subscriptions ++
      (db.installationSubscriptions.filter fun row =>
        decide (row.installationId = installation) &&
          !db.subscribesUser user row.resourceId).map fun row =>
            { resourceId := row.resourceId
              userId := user
              retainOnDelete := row.retainOnDelete
              pinnedReleaseVersion := row.pinnedReleaseVersion }
    installationSubscriptions := deleteWhere
      (fun row => row.installationId = installation)
      db.installationSubscriptions }

/-- A live team skill that the user may publish. -/
def awaitsWorkspace (user id : Uuid) : Bool :=
  (db.findResource id).any fun row =>
    decide (row.kind = .skill) && !row.deleted && !db.quarantined id &&
      decide (db.ownerKind row = some .team) &&
        (db.directory.membership row.ownerNamespaceId user).any
          fun membership =>
            (db.directory.team row.ownerNamespaceId).any fun team =>
              Directory.roleCanPublish membership.role
                team.membersCanPublish

/-- The workspaces that a member who may publish has on the skills of the own
teams. -/
def provisionTeamWorkspaces (user : Uuid) : Db :=
  ((db.resources.map ResourceRow.id).filter
    (db.awaitsWorkspace user)).foldl
      (fun db id => db.ensurePrivateWorkspaceForUser id user) db

/-!
## Tombstones
-/

/-- Turn a resource of a deleted account into a tombstone. -/
def tombstoneOwned (user : Uuid) (owner : Text) (db : Db)
    (row : ResourceRow) : Except ApiError Db := do
  let generation <- nextGeneration row.generation
  let db := { db with
    resources := updateWhere (fun other => other.id = row.id)
      (fun other => { other with
        visibility := .priv
        generation
        deleted := true
        tombstoneReleaseVersion := other.latestReleaseVersion
        deletedOwnerSlug := some owner })
      db.resources
    workspaces := updateWhere
      (fun workspace => decide (workspace.resourceId = row.id ∧
          workspace.workspaceUserId = user) &&
        db.canManageResource user row.id)
      (fun workspace => { workspace with generation })
      db.workspaces }
  let db := db.deleteRedirectsTo (.actor user) row.id
  return db.enqueueResourceWake row.id generation.value

/-- The live resources of a namespace that the acting user may change. -/
def ownedResources (user namespaceId : Uuid) : List ResourceRow :=
  db.resources.filter fun row =>
    decide (row.ownerNamespaceId = namespaceId) && !row.deleted &&
      db.canReadResource user row.id && db.canManageResource user row.id

def tombstoneOwnedResourcesForAccountDelete (user namespaceId : Uuid)
    (owner : Text) : Except ApiError Db :=
  (db.ownedResources user namespaceId).foldlM (tombstoneOwned user owner) db

/-- Delete a namespace and what the database deletes along with it.  Resources
lose their owner, which only tombstones may. -/
def deleteNamespace (id : Uuid) : Except ApiError Db := do
  ensure (db.resources.all fun row =>
      row.deleted || decide (row.ownerNamespaceId ≠ id))
    (internalApiError "resources_active_owner_check")
  return { db with
    directory := db.directory.deleteNamespace id
    redirects := deleteWhere (fun row => row.namespaceId = id) db.redirects
    namespaceBlobs := deleteWhere (fun row => row.1.1 = id) db.namespaceBlobs
    importOperations := deleteWhere (fun row => row.namespaceId = id)
      db.importOperations
    revisionOperations := deleteWhere (fun row => row.namespaceId = id)
      db.revisionOperations
    teamPackAssignments := deleteWhere (fun row => row.teamNamespaceId = id)
      db.teamPackAssignments
    teamOperations := deleteWhere (fun row => row.target = id)
      db.teamOperations }

/-!
## Deleting an account
-/

def ownedTeam (user : Uuid) : Option Text :=
  (sortByKey utf8 (db.directory.memberships.filterMap fun row =>
    if row.userId = user ∧ row.role = .owner then
      (db.directory.namespaceById row.teamNamespaceId).map Namespace.slug
    else none)).head?

def joinedTeams (user : Uuid) : List Uuid :=
  sortByKey (fun team : Uuid => team.toList)
    ((db.directory.memberships.filter fun row => row.userId = user).map
      TeamMembership.teamNamespaceId)

/-- What is the own of a user, and not of the namespace of the user. -/
def deleteUserRows (user : Uuid) : Db :=
  { db with
    subscriptions := deleteWhere (fun row => row.userId = user)
      db.subscriptions
    installationSubscriptions := deleteWhere
      (fun row => db.ownsInstallation user row.installationId)
      db.installationSubscriptions
    importOperations := deleteWhere (fun row => row.userId = user)
      db.importOperations
    revisionOperations := deleteWhere (fun row => row.userId = user)
      db.revisionOperations }

end Db

structure TeamDeleteResponse where
  team : Text
  deleted : Bool
deriving DecidableEq

namespace Registry

/-- The transaction that deletes an account, after the request, the session
and the password have been checked. -/
def deleteAccount (userId : Uuid) (db : Db) :
    Except ApiError (AccountDeleteResponse × Db) := do
  let authority <- db.directory.userAuthority userId
  match db.ownedTeam userId with
  | some team => .error (ApiError.new .invalidRequest
      ("account owns @" ++ String.ofList team ++
        "; team ownership succession must be completed before deleting the account"))
  | none => do
      let db <- (db.joinedTeams userId).foldlM
        (fun db team => db.removeTeamWorkspacesForUser userId team userId) db
      let db := { db with directory := db.directory.deleteMemberships userId }
      let db <- db.tombstoneOwnedResourcesForAccountDelete userId
        authority.namespaceId authority.namespaceSlug
      let db <- (db.deleteUserRows userId).deleteNamespace
        authority.namespaceId
      return (
        { deleted := true, username := '@' :: authority.namespaceSlug }, db)

/-!
## Deleting a team
-/

/-- A live pack of the team that the acting user sees. -/
def isTeamPack (db : Db) (user team id : Uuid) : Bool :=
  (db.findResource id).any fun row =>
    decide (row.ownerNamespaceId = team) && decide (row.kind = .pack) &&
      !row.deleted && db.canReadResource user id

/-- The subscriptions to the packs of a team, and their assignments, as far as
the acting user may delete them. -/
def deleteTeamPackRoots (user team : Uuid) (db : Db) : Db :=
  { db with
    installationSubscriptions := deleteVisible
      (fun row => db.ownsInstallation user row.installationId)
      (fun row => isTeamPack db user team row.resourceId)
      db.installationSubscriptions
    subscriptions := deleteVisible (fun row => row.userId == user)
      (fun row => isTeamPack db user team row.resourceId) db.subscriptions
    teamPackAssignments := deleteVisible
      (fun row => db.isTeamOwner user row.teamNamespaceId)
      (fun row => isTeamPack db user team row.packResourceId)
      db.teamPackAssignments }

/-- The transaction that deletes a team, after the request and the password of
the owner have been checked. -/
def deleteTeam (userId : Uuid) (slug : Text) (db : Db) :
    Except ApiError (TeamDeleteResponse × Db) := do
  let authority <- db.directory.userAuthority userId
  let (team, role, _) <- db.teamMembershipForUpdate authority.userId slug
  ensure (decide (role = .owner))
    (ApiError.new .unauthorized "only the team owner may delete the team")
  let db := deleteTeamPackRoots authority.userId team db
  let db <- db.tombstoneOwnedResourcesForAccountDelete authority.userId team
    slug
  let db <- db.deleteNamespace team
  return ({ team := '@' :: slug, deleted := true }, db)

/-!
## Topics
-/

/-- The transaction that sets the topics of a resource, which are kept beside
the tables of this development, and counts its generation up. -/
def setResourceTopics (userId resourceId : Uuid) (expectedGeneration : UInt64)
    (db : Db) : Except ApiError (Nat × Db) := do
  let authority <- db.directory.userAuthority userId
  let _ <- db.authorizeResourcePublish authority resourceId
  let row <- okOr
    ((db.findResource resourceId).filter fun row =>
      !row.deleted && db.canReadResource authority.userId resourceId &&
        db.canManageResource authority.userId resourceId)
    (ApiError.new .notFound "resource not found")
  ensure (row.generation.value == expectedGeneration.toNat)
    (ApiError.new .generationConflict
      "resource generation changed; refresh and retry")
  let generation <- nextGeneration row.generation
  let db := { db with
    resources := updateWhere (fun row => row.id = resourceId)
      (fun row => { row with generation }) db.resources }
  return (generation.value,
    db.enqueueResourceWake resourceId generation.value)

end Registry
end Denju
