import Denju.Registry.Schema
import Denju.Lib.Result

/-!
# Authority and row visibility

Who may publish into a namespace, and which rows a request may read.
-/

namespace Denju

open Lib

structure UserAuthority where
  userId : Uuid
  namespaceId : Uuid
  namespaceSlug : Text
  authorPrincipalId : AuthorPrincipalId
deriving DecidableEq

structure NamespacePublishAuthority where
  namespaceId : Uuid
  namespaceSlug : Text
  isTeam : Bool
deriving DecidableEq

namespace Directory

variable (directory : Directory)

def namespaceById (id : Uuid) : Option Namespace :=
  directory.namespaces.find? fun row => row.id = id

def namespaceBySlug (slug : Text) : Option Namespace :=
  directory.namespaces.find? fun row => row.slug = slug

def membership (team user : Uuid) : Option TeamMembership :=
  directory.memberships.find? fun row =>
    row.teamNamespaceId = team ∧ row.userId = user

def team (namespaceId : Uuid) : Option Team :=
  directory.teams.find? fun row => row.namespaceId = namespaceId

/-- The authority behind an authenticated credential of the user. -/
def userAuthority (userId : Uuid) : Except ApiError UserAuthority := do
  let invalidCredentials :=
    ApiError.new .unauthorized "invalid identity credential"
  let user <- okOr (directory.users.find? fun row => row.id = userId)
    invalidCredentials
  let row <- okOr (directory.namespaceById user.namespaceId)
    invalidCredentials
  return {
    userId
    namespaceId := user.namespaceId
    namespaceSlug := row.slug
    authorPrincipalId := user.authorPrincipalId }

def authorLinked (author : AuthorPrincipalId) (userId : Uuid) : Bool :=
  directory.authorLinks.any fun row =>
    row.authorPrincipalId = author ∧ row.userId = userId

def revisionAuthorForUser (authority : UserAuthority)
    (requested : Option AuthorPrincipalId) :
    Except ApiError AuthorPrincipalId :=
  match requested with
  | none => .ok authority.authorPrincipalId
  | some author => do
      ensure (directory.authorLinked author authority.userId)
        (ApiError.new .unauthorized
          "revision author principal is not linked to this user")
      return author

def roleCanPublish (role : TeamRole) (membersCanPublish : Bool) : Bool :=
  match role with
  | .owner => true
  | .maintainer => true
  | .member => membersCanPublish

def authorizeNamespacePublish (authority : UserAuthority) (owner : Text) :
    Except ApiError NamespacePublishAuthority := do
  let row <- okOr (directory.namespaceBySlug owner)
    (ApiError.new .notFound "namespace not found")
  match row.kind with
  | .user => do
      ensure (row.id == authority.namespaceId)
        (ApiError.new .unauthorized "resource namespace is unavailable")
      return { namespaceId := row.id, namespaceSlug := owner, isTeam := false }
  | .team => do
      let membership <-
        okOr (directory.membership row.id authority.userId)
          (ApiError.new .unauthorized "team is unavailable")
      let team <- okOr (directory.team row.id)
        (ApiError.new .internal "team settings are unavailable")
      ensure (roleCanPublish membership.role team.membersCanPublish)
        (ApiError.new .unauthorized "team role does not allow publishing")
      return { namespaceId := row.id, namespaceSlug := owner, isTeam := true }

/-!
## Row policies of namespaces
-/

def ownsNamespace (user target : Uuid) : Bool :=
  directory.users.any fun row => row.id = user ∧ row.namespaceId = target

def hasNamespaceAccess (user target : Uuid) : Bool :=
  directory.ownsNamespace user target ||
    directory.memberships.any fun row =>
      row.userId = user ∧ row.teamNamespaceId = target

def canPublishNamespace (user target : Uuid) : Bool :=
  directory.ownsNamespace user target ||
    directory.memberships.any fun row =>
      decide (row.userId = user ∧ row.teamNamespaceId = target) &&
        directory.teams.any fun team =>
          decide (team.namespaceId = row.teamNamespaceId) &&
            roleCanPublish row.role team.membersCanPublish

/-!
## Facts about the directory
-/

variable {directory}

theorem userAuthority_eq_ok {userId : Uuid} {authority : UserAuthority}
    (h : directory.userAuthority userId = .ok authority) :
    exists user, user ∈ directory.users ∧ user.id = userId ∧
      authority.userId = userId ∧
        authority.namespaceId = user.namespaceId ∧
          authority.authorPrincipalId = user.authorPrincipalId := by
  rcases bind_eq_ok.mp h with ⟨user, huser, h⟩
  rcases bind_eq_ok.mp h with ⟨row, _, h⟩
  cases h
  have hfind := okOr_eq_ok.mp huser
  have hid : user.id = userId := by
    simpa using List.find?_some hfind
  exact ⟨user, List.mem_of_find?_eq_some hfind, hid, rfl, rfl, rfl⟩

/-- A personal namespace belongs to one user. -/
theorem userId_eq_of_namespaceId_eq {a b : UserAuthority} {idA idB : Uuid}
    (ha : directory.userAuthority idA = .ok a)
    (hb : directory.userAuthority idB = .ok b)
    (h : a.namespaceId = b.namespaceId) : a.userId = b.userId := by
  rcases userAuthority_eq_ok ha with ⟨userA, hmemA, hidA, huserA, hspaceA, _⟩
  rcases userAuthority_eq_ok hb with ⟨userB, hmemB, hidB, huserB, hspaceB, _⟩
  have hspace : userA.namespaceId = userB.namespaceId := by
    rw [← hspaceA, ← hspaceB, h]
  have hsame := List.inj_on_of_nodup_map directory.userNamespaceUnique
    hmemA hmemB hspace
  rw [huserA, huserB, ← hidA, ← hidB, hsame]

theorem namespaceById_eq_some {id : Uuid} {row : Namespace}
    (h : directory.namespaceById id = some row) :
    row ∈ directory.namespaces ∧ row.id = id :=
  ⟨List.mem_of_find?_eq_some h, by simpa using List.find?_some h⟩

theorem namespaceBySlug_of_mem {row : Namespace}
    (h : row ∈ directory.namespaces) :
    directory.namespaceBySlug row.slug = some row :=
  find?_key_eq_some directory.slugUnique h

theorem mem_of_authorizeNamespacePublish {authority : UserAuthority}
    {owner : Text} {target : NamespacePublishAuthority}
    (h : directory.authorizeNamespacePublish authority owner = .ok target) :
    exists row, row ∈ directory.namespaces ∧ row.slug = owner := by
  rcases bind_eq_ok.mp h with ⟨found, hfound, _⟩
  have hslug := okOr_eq_ok.mp hfound
  exact ⟨found, List.mem_of_find?_eq_some hslug,
    by simpa using List.find?_some hslug⟩

theorem authorizeNamespacePublish_eq_ok {authority : UserAuthority}
    {row : Namespace} {target : NamespacePublishAuthority}
    (hrow : row ∈ directory.namespaces)
    (h : directory.authorizeNamespacePublish authority row.slug =
      .ok target) :
    target.namespaceId = row.id ∧
      ((target.isTeam = false ∧ row.kind = .user ∧
          row.id = authority.namespaceId) ∨
        (target.isTeam = true ∧ row.kind = .team ∧
          exists membership team,
            directory.membership row.id authority.userId =
                some membership ∧
              directory.team row.id = some team ∧
                roleCanPublish membership.role team.membersCanPublish =
                  true)) := by
  rcases bind_eq_ok.mp h with ⟨found, hfound, h⟩
  have hsame : found = row := by
    have hslug := okOr_eq_ok.mp hfound
    rw [namespaceBySlug_of_mem hrow] at hslug
    exact (Option.some.inj hslug).symm
  subst hsame
  split at h
  · rename_i hkind
    rcases bind_eq_ok.mp h with ⟨_, howner, h⟩
    cases h
    exact ⟨rfl, .inl ⟨rfl, hkind, by simpa using howner⟩⟩
  · rename_i hkind
    rcases bind_eq_ok.mp h with ⟨membership, hmembership, h⟩
    rcases bind_eq_ok.mp h with ⟨team, hteam, h⟩
    rcases bind_eq_ok.mp h with ⟨_, hrole, h⟩
    cases h
    refine ⟨rfl, .inr ⟨rfl, hkind, membership, team, ?_, ?_, ?_⟩⟩
    · exact okOr_eq_ok.mp hmembership
    · exact okOr_eq_ok.mp hteam
    · exact ensure_eq_ok.mp hrole

/-- The namespace that a publisher has named. -/
theorem found_of_authorizeNamespacePublish {authority : UserAuthority}
    {owner : Text} {target : NamespacePublishAuthority}
    (h : directory.authorizeNamespacePublish authority owner = .ok target) :
    exists space, directory.namespaceBySlug owner = some space ∧
      space ∈ directory.namespaces ∧ target.namespaceId = space.id ∧
        (target.isTeam = true -> space.kind = .team) := by
  rcases bind_eq_ok.mp h with ⟨space, hspace, _⟩
  have hfound := okOr_eq_ok.mp hspace
  have hmem := List.mem_of_find?_eq_some hfound
  have hslug : space.slug = owner := by
    simpa using List.find?_some hfound
  rw [← hslug] at h
  rcases authorizeNamespacePublish_eq_ok hmem h with
    ⟨hid, ⟨hpersonal, _⟩ | ⟨_, hkind, _⟩⟩
  · refine ⟨space, hfound, hmem, hid, fun hteam => ?_⟩
    rw [hpersonal] at hteam
    cases hteam
  · exact ⟨space, hfound, hmem, hid, fun _ => hkind⟩

end Directory

/-!
## Row policies of resources and revisions
-/

namespace Db

variable (db : Db)

def findResource (id : Uuid) : Option ResourceRow :=
  db.resources.find? fun row => row.id = id

def quarantined (id : Uuid) : Bool :=
  db.quarantines.any fun row =>
    row.resourceId = id ∧ row.lifted = false ∧ row.releaseVersion = none

def releaseQuarantined (id : Uuid) (version : Generation) : Bool :=
  db.quarantines.any fun row =>
    row.resourceId = id ∧ row.lifted = false ∧
      (row.releaseVersion = none ∨ row.releaseVersion = some version)

def sharedWith (id user : Uuid) : Bool :=
  db.shares.any fun row => row.resourceId = id ∧ row.userId = user

def canManageResource (user id : Uuid) : Bool :=
  (db.resources.any fun row =>
    decide (row.id = id) &&
      db.directory.canPublishNamespace user row.ownerNamespaceId) &&
    !db.quarantined id

def canReviewSourceResource (user id : Uuid) : Bool :=
  db.proposals.any fun proposal =>
    decide (proposal.sourceResourceId = id) &&
      ((db.findResource proposal.sourceResourceId).any fun source =>
        (!source.deleted && !db.quarantined source.id)) &&
      ((db.findResource proposal.targetResourceId).any fun target =>
        !target.deleted &&
          (decide (proposal.proposerUserId = user) ||
            db.directory.canPublishNamespace user target.ownerNamespaceId))

/-- A deleted resource stays readable for who subscribed to keep it. -/
def keepsDeleted (user id : Uuid) : Bool :=
  ((db.findResource id).any fun row => row.deleted) &&
    db.subscriptions.any fun row =>
      decide (row.userId = user ∧ row.resourceId = id) && row.retainOnDelete

def canReadResource (user id : Uuid) : Bool :=
  ((db.findResource id).any fun row =>
    (decide (row.visibility = .pub) && !row.deleted) ||
      db.directory.hasNamespaceAccess user row.ownerNamespaceId ||
      (!row.deleted &&
        (db.sharedWith id user || db.canReviewSourceResource user id))) ||
    db.keepsDeleted user id

def workspace (resourceId user : Uuid) : Option WorkspaceRow :=
  db.workspaces.find? fun row =>
    row.resourceId = resourceId ∧ row.workspaceUserId = user

def released (resourceId : Uuid) (revision : RevisionId) : Bool :=
  db.releases.any fun row =>
    row.resourceId = resourceId ∧ row.revisionId = revision

def ownerKind (row : ResourceRow) : Option NamespaceKind :=
  (db.directory.namespaceById row.ownerNamespaceId).map Namespace.kind

/-- The revisions behind the workspace of a user. -/
def workspaceAncestry (edges : List (RevisionId × RevisionId))
    (resourceId user : Uuid) : List RevisionId :=
  match db.workspace resourceId user with
  | none => []
  | some workspace => ancestry edges workspace.revisionId

/-- A subscriber keeps reading the last release of a deleted resource. -/
def canReadTombstone (user id : Uuid) (revision : RevisionId) : Bool :=
  (db.findResource id).any fun row =>
    row.deleted &&
      (db.releases.any fun release =>
        decide (release.resourceId = id ∧
          some release.version = row.tombstoneReleaseVersion ∧
          release.revisionId = revision) &&
          !db.releaseQuarantined id release.version) &&
      db.subscriptions.any fun row =>
        decide (row.userId = user ∧ row.resourceId = id) && row.retainOnDelete

def canReadRevisionSnapshot (user id : Uuid) (revision : RevisionId) : Bool :=
  ((db.findResource id).any fun row =>
    !row.deleted && !db.quarantined id &&
      (((db.releases.any fun release =>
          decide (release.resourceId = id ∧ release.revisionId = revision) &&
            !db.releaseQuarantined id release.version) &&
          (decide (row.visibility = .pub) ||
            db.directory.hasNamespaceAccess user row.ownerNamespaceId ||
            db.sharedWith id user)) ||
        (decide (db.ownerKind row = some .user) &&
          (db.directory.hasNamespaceAccess user row.ownerNamespaceId ||
            db.sharedWith id user)) ||
        (decide (db.ownerKind row = some .team) &&
          decide (revision ∈ db.workspaceAncestry db.edges id user)) ||
        db.canReviewSourceResource user id)) ||
    db.canReadTombstone user id revision

/-- A snapshot row is read by its audience, or by a manager of the resource. -/
def snapshotVisible (user : Uuid) (row : SnapshotRow) : Bool :=
  db.canReadRevisionSnapshot user row.resourceId row.revisionId ||
    db.canManageResource user row.resourceId

def releaseVisible (user : Uuid) (row : ReleaseRow) : Bool :=
  db.canReadRevisionSnapshot user row.resourceId row.revisionId

def canReadRevision (user : Uuid) (revision : RevisionId) : Bool :=
  (db.snapshots.any fun row =>
    decide (row.revisionId = revision) &&
      db.canReadRevisionSnapshot user row.resourceId row.revisionId) ||
    db.revisions.any fun row =>
      decide (row.revisionId = revision) &&
        db.directory.authorLinked row.authorPrincipalId user

/-- The edges of the revision graph that a user may read. -/
def readableEdges (user : Uuid) : List (RevisionId × RevisionId) :=
  db.edges.filter fun edge => db.canReadRevision user edge.1

def authorizeResourcePublish (authority : UserAuthority) (resourceId : Uuid) :
    Except ApiError NamespacePublishAuthority := do
  let notFound := ApiError.new .notFound "resource not found"
  let row <- okOr
    ((db.findResource resourceId).filter fun row =>
      !row.deleted && !db.quarantined resourceId &&
        db.canReadResource authority.userId resourceId)
    notFound
  let owner <- okOr (db.directory.namespaceById row.ownerNamespaceId) notFound
  db.directory.authorizeNamespacePublish authority owner.slug

variable {db}

theorem mem_of_findResource_eq_some {id : Uuid} {row : ResourceRow}
    (h : db.findResource id = some row) : row ∈ db.resources ∧ row.id = id :=
  ⟨List.mem_of_find?_eq_some h, by simpa using List.find?_some h⟩

/-- A publisher of a resource: the owner of its personal namespace, or a
publishing member of its team. -/
theorem authorizeResourcePublish_eq_ok {authority : UserAuthority} {id : Uuid}
    {target : NamespacePublishAuthority}
    (h : db.authorizeResourcePublish authority id = .ok target) :
    exists row owner, db.findResource id = some row ∧ row.deleted = false ∧
      db.quarantined id = false ∧
        db.directory.namespaceById row.ownerNamespaceId = some owner ∧
          target.namespaceId = row.ownerNamespaceId ∧
            ((target.isTeam = false ∧ owner.kind = .user ∧
                row.ownerNamespaceId = authority.namespaceId) ∨
              (target.isTeam = true ∧ owner.kind = .team ∧
                exists membership team,
                  db.directory.membership row.ownerNamespaceId
                      authority.userId = some membership ∧
                    db.directory.team row.ownerNamespaceId = some team ∧
                      Directory.roleCanPublish membership.role
                        team.membersCanPublish = true)) := by
  rcases bind_eq_ok.mp h with ⟨row, hrow, h⟩
  rcases bind_eq_ok.mp h with ⟨owner, howner, h⟩
  have hfound := Option.filter_eq_some_iff.mp (okOr_eq_ok.mp hrow)
  have hspace := okOr_eq_ok.mp howner
  have hid := Directory.namespaceById_eq_some hspace
  have hpublish := Directory.authorizeNamespacePublish_eq_ok hid.1 h
  rw [hid.2] at hpublish
  have hlive : row.deleted = false ∧ db.quarantined id = false := by
    have hchecks := hfound.2
    simp only [Bool.and_eq_true, Bool.not_eq_true'] at hchecks
    exact hchecks.1
  exact ⟨row, owner, hfound.1, hlive.1, hlive.2, hspace, hpublish⟩

end Db
end Denju
