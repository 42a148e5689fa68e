import Denju.Registry.Packs

/-!
# Viewers

A request that only reads may come from a user, from a device that nobody has
signed in on, or from nobody.  Every statement of it sees the rows that the row
policies let its viewer see.
-/

namespace Denju

open Lib

inductive Viewer where
  | anonymous
  | installation (id : Uuid)
  | user (id : Uuid)
deriving DecidableEq, Repr

/-- Who a subscription belongs to. -/
inductive SubscriptionSubject where
  | installation (id : Uuid)
  | user (id : Uuid)
deriving DecidableEq, Repr

def SubscriptionSubject.viewer : SubscriptionSubject -> Viewer
  | .installation id => .installation id
  | .user id => .user id

/-- Reading a pack does not use the identity of a device. -/
def SubscriptionSubject.reader : SubscriptionSubject -> Viewer
  | .installation _ => .anonymous
  | .user id => .user id

def ResourceRow.isPublic (row : ResourceRow) : Bool :=
  decide (row.visibility = .pub) && !row.deleted

namespace Db

variable (db : Db)

def publicResource (id : Uuid) : Bool :=
  (db.findResource id).any ResourceRow.isPublic

/-- A deleted resource stays readable on a device that subscribed to keep it. -/
def installationKeeps (installation id : Uuid) : Bool :=
  ((db.findResource id).any fun row => row.deleted) &&
    db.installationSubscriptions.any fun row =>
      decide (row.installationId = installation ∧ row.resourceId = id) &&
        row.retainOnDelete

/-- A release of a public skill, unless it is quarantined. -/
def publicRelease (id : Uuid) (revision : RevisionId) : Bool :=
  ((db.findResource id).any fun row =>
    !row.deleted && decide (row.visibility = .pub)) &&
    !db.quarantined id &&
      db.releases.any fun release =>
        decide (release.resourceId = id ∧ release.revisionId = revision) &&
          !db.releaseQuarantined id release.version

/-- The last release of a deleted skill, on a device that keeps it. -/
def installationTombstone (installation id : Uuid) (revision : RevisionId) :
    Bool :=
  db.installationKeeps installation id &&
    (db.findResource id).any fun row =>
      db.releases.any fun release =>
        decide (release.resourceId = id ∧
          some release.version = row.tombstoneReleaseVersion ∧
          release.revisionId = revision) &&
          !db.releaseQuarantined id release.version

def seesResource : Viewer -> Uuid -> Bool
  | .anonymous, id => db.publicResource id
  | .installation installation, id =>
      db.publicResource id || db.installationKeeps installation id
  | .user user, id => db.canReadResource user id

/-- The policy of releases. -/
def readsRevision : Viewer -> Uuid -> RevisionId -> Bool
  | .anonymous, id, revision => db.publicRelease id revision
  | .installation installation, id, revision =>
      db.publicRelease id revision ||
        db.installationTombstone installation id revision
  | .user user, id, revision => db.canReadRevisionSnapshot user id revision

/-- The policy of snapshots, which a manager of the resource also sees. -/
def seesSnapshot : Viewer -> SnapshotRow -> Bool
  | .anonymous, row => db.readsRevision .anonymous row.resourceId row.revisionId
  | .installation installation, row =>
      db.readsRevision (.installation installation) row.resourceId
        row.revisionId
  | .user user, row => db.snapshotVisible user row

/-- The policy of shares, for the shares with the viewer. -/
def seesShare (viewer : Viewer) (id user : Uuid) : Bool :=
  decide (viewer = .user user) && db.sharedWith id user

/-- The policy of redirects. -/
def seesRedirect (viewer : Viewer) (row : RedirectRow) : Bool :=
  db.seesResource viewer row.targetResourceId

/-!
## Locators

A locator names the live resource that holds its name, or else the one that a
redirect of that name points to.
-/

def holdsName (kind : ResourceKind) (namespaceId : Uuid) (slug : Text)
    (row : ResourceRow) : Bool :=
  row.ownerNamespaceId = namespaceId ∧ row.kind = kind ∧ row.slug = slug ∧
    row.deleted = false

def atName (kind : ResourceKind) (namespaceId : Uuid) (slug : Text)
    (row : RedirectRow) : Bool :=
  row.namespaceId = namespaceId ∧ row.kind = kind ∧ row.oldSlug = slug

/-- The live resource that holds the name, if the viewer sees it. -/
def activeAt (viewer : Viewer) (kind : ResourceKind) (owner slug : Text) :
    Option ResourceRow := do
  let space <- db.directory.namespaceBySlug owner
  db.resources.find? fun row =>
    holdsName kind space.id slug row && db.seesResource viewer row.id

/-- The live resource that a redirect points to, if the viewer sees both. -/
def redirectedAt (viewer : Viewer) (kind : ResourceKind) (owner slug : Text) :
    Option ResourceRow := do
  let space <- db.directory.namespaceBySlug owner
  let redirect <- db.redirects.find? fun row =>
    atName kind space.id slug row && db.seesRedirect viewer row
  (db.findResource redirect.targetResourceId).filter fun row =>
    !row.deleted && db.seesResource viewer row.id

end Db

namespace Registry

/-- The skill behind a locator. -/
def resolveActiveSkillLocator (viewer : Viewer) (owner slug : Text) (db : Db) :
    Except ApiError ResourceRow :=
  match db.activeAt viewer .skill owner slug with
  | some row => .ok row
  | none =>
      okOr (db.redirectedAt viewer .skill owner slug)
        (ApiError.new .notFound "skill not found")

/-- The pack behind a locator. -/
def loadPackByLocator (viewer : Viewer) (owner slug : Text) (db : Db) :
    Except ApiError PackRow :=
  match (db.activeAt viewer .pack owner slug).bind db.packRow with
  | some pack => .ok pack
  | none =>
      okOr (((db.redirectedAt viewer .pack owner slug).filter fun row =>
          decide (row.kind = .pack)).bind db.packRow)
        packNotFound

end Registry
end Denju
