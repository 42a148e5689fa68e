import Mathlib.Order.WithBot
import Denju.Lib.Kleene
import Denju.Registry.Discovery
import Denju.Registry.PackDetail

/-!
# The catalog of a subscriber

A subscriber reads all that it subscribes to in two queries.  The first finds
what is withheld by a quarantine, and the second, over the same joins, the
content of the rest.  A column that the second query leaves null fails the
whole catalog.
-/

namespace Denju

open Lib

/-!
## The joined rows
-/

/-- A subscription with what both queries join to it. -/
structure SubscribedResource where
  resource : ResourceRow
  owner : Option Namespace
  shared : Bool
  member : Bool
  pinned : Option Generation
  retain : Bool

namespace SubscribedResource

variable (row : SubscribedResource)

def ownerSlug : Option Text :=
  (row.owner.map Namespace.slug).or row.resource.deletedOwnerSlug

/-- The live workspace of a personal skill that is shared with the account. -/
def livePrivate : Truth :=
  (Truth.equals (row.owner.map Namespace.kind) .user).and
    (Truth.and (some row.shared)
      (Truth.and (some !row.resource.deleted)
        (Truth.and (some row.pinned.isNone) (some !row.retain))))

/-- A deleted skill that is kept with its last release. -/
def retained : Truth :=
  Truth.and (some row.resource.deleted)
    (Truth.and (some row.retain)
      (some row.resource.tombstoneReleaseVersion.isSome))

def isPublic : Truth :=
  some (decide (row.resource.visibility = .pub))

/-- What a device may follow. -/
def wantedByInstallation : Truth :=
  Truth.and (some (decide (row.resource.kind = .skill)))
    (Truth.or (Truth.and (some !row.resource.deleted) row.isPublic)
      row.retained)

/-- What an account may follow. -/
def wantedByUser : Truth :=
  let released : Truth := some row.resource.latestReleaseVersion.isSome
  Truth.and (some (decide (row.resource.kind = .skill)))
    (Truth.or
      (Truth.and (some !row.resource.deleted)
        (Truth.or row.isPublic
          (Truth.or
            (Truth.and (some row.shared)
              (Truth.or
                (Truth.equals (row.owner.map Namespace.kind) .user) released))
            (Truth.and (some row.member) released))))
      row.retained)

/-- The release that is joined. -/
def releaseVersion : Option Generation :=
  if row.resource.deleted then row.resource.tombstoneReleaseVersion
  else row.pinned.or row.resource.latestReleaseVersion

end SubscribedResource

namespace Db

variable (db : Db)

/-- A visible resource that is subscribed to. -/
def joinSubscription (subject : SubscriptionSubject) (resourceId : Uuid)
    (pinned : Option Generation) (retain : Bool) :
    Option SubscribedResource :=
  ((db.findResource resourceId).filter fun row =>
    db.seesResource subject.viewer row.id).map fun resource =>
      { resource
        owner := db.directory.namespaceById resource.ownerNamespaceId
        shared :=
          match subject with
          | .installation _ => false
          | .user user => db.sharedWith resource.id user
        member :=
          match subject with
          | .installation _ => false
          | .user user => db.isTeamMember user resource.ownerNamespaceId
        pinned
        retain }

/-- The subscriptions of a subscriber: resource, pin and retention. -/
def subscriptionsOf : SubscriptionSubject ->
    List (Uuid × Option Generation × Bool)
  | .installation installation =>
      (db.installationSubscriptions.filter fun row =>
        row.installationId = installation).map fun row =>
          (row.resourceId, row.pinnedReleaseVersion, row.retainOnDelete)
  | .user user =>
      (db.subscriptions.filter fun row => row.userId = user).map fun row =>
        (row.resourceId, row.pinnedReleaseVersion, row.retainOnDelete)

def wanted (subject : SubscriptionSubject) (row : SubscribedResource) : Truth :=
  match subject with
  | .installation _ => row.wantedByInstallation
  | .user _ => row.wantedByUser

/-- Whether the query of the subscriber takes the live workspace. -/
def takesLive (subject : SubscriptionSubject) (row : SubscribedResource) :
    Truth :=
  match subject with
  | .installation _ => some false
  | .user _ => row.livePrivate

section Order

variable {κ : Type} [LinearOrder κ] (collation : Collation κ)

/-- Null comes last. -/
def subscriptionOrder (row : SubscribedResource) :
    WithTop κ ×ₗ κ ×ₗ List UInt8 :=
  let owner : WithTop κ :=
    match row.ownerSlug with
    | none => ⊤
    | some slug => (collation.sortKey slug : κ)
  toLex (owner, toLex (collation.sortKey row.resource.slug,
    row.resource.id.toList))

variable (db : Db) in
def subscribedRows (subject : SubscriptionSubject) :
    List SubscribedResource :=
  sortByKey (subscriptionOrder collation)
    (((db.subscriptionsOf subject).filterMap fun row =>
      db.joinSubscription subject row.1 row.2.1 row.2.2).filter fun row =>
        (wanted subject row).holds)

end Order

end Db

/-!
## What is withheld
-/

/-- A column that must not be null is null. -/
def unexpectedNull : ApiError :=
  internalApiError "unexpected null; try decoding as an `Option`"

structure QuarantineCandidate where
  resourceId : Uuid
  owner : Text
  name : Text
  desiredRelease : Option Generation
  livePrivate : Bool

structure QuarantinedResource where
  resourceId : Uuid
  locator : Text
  releaseVersion : Option Nat
  reason : Text
deriving DecidableEq

def quarantineCandidate (subject : SubscriptionSubject)
    (row : SubscribedResource) : Except ApiError QuarantineCandidate := do
  let live := Db.takesLive subject row
  let owner <- okOr row.ownerSlug unexpectedNull
  let livePrivate <- okOr live unexpectedNull
  return {
    resourceId := row.resource.id
    owner
    name := row.resource.slug
    desiredRelease := if live.holds then none else row.releaseVersion
    livePrivate }

/-- Null comes first. -/
def quarantineOrder (row : QuarantineRow) : WithBot Nat ×ₗ List UInt8 :=
  let version : WithBot Nat :=
    match row.releaseVersion with
    | none => ⊥
    | some found => WithBot.some found.value
  toLex (version, row.id.toList)

namespace Db

variable (db : Db)

/-- The active quarantines of a resource, first the one of the whole. -/
def activeQuarantines (resourceId : Uuid) : List QuarantineRow :=
  sortByKey quarantineOrder
    (db.quarantines.filter fun row =>
      row.resourceId = resourceId ∧ row.lifted = false)

def withholding (candidate : QuarantineCandidate) : Option QuarantineRow :=
  let entries := db.activeQuarantines candidate.resourceId
  (entries.find? fun entry => entry.releaseVersion.isNone).or
    (if candidate.livePrivate then none
    else candidate.desiredRelease.bind fun version =>
      entries.find? fun entry => entry.releaseVersion = some version)

def quarantinedResource (candidate : QuarantineCandidate) :
    Option QuarantinedResource :=
  (db.withholding candidate).map fun active =>
    { resourceId := candidate.resourceId
      locator := locator candidate.owner candidate.name
      releaseVersion := active.releaseVersion.map Generation.value
      reason := active.reason }

end Db

/-!
## The content
-/

structure SubscriptionCatalog where
  skills : List SubscribedSkill
  quarantined : List QuarantinedResource

/-- A row of the second query, decoded. -/
structure SubscriptionContentRow where
  id : Uuid
  owner : Text
  name : Text
  description : Text
  generation : Generation
  version : Option Generation
  revisionId : RevisionId
  snapshot : StoredSnapshot
  pinnedReleaseVersion : Option Generation
  retainOnDelete : Bool
  retainedAfterDelete : Bool
  deprecated : Bool
  replacement : Option (Uuid × Option (Text × Text))
  livePrivate : Bool

namespace Db

variable (db : Db)

/-- The release row that the subscriber sees. -/
def seenRelease (subject : SubscriptionSubject) (row : SubscribedResource) :
    Option ReleaseRow := do
  let version <- row.releaseVersion
  (db.findRelease row.resource.id version).filter fun release =>
    db.readsRevision subject.viewer release.resourceId release.revisionId

/-- The workspace row of the owner that the account sees. -/
def seenWorkspace (user : Uuid) (row : SubscribedResource) :
    Option WorkspaceRow := do
  let owner <- db.directory.users.find? fun owner =>
    owner.namespaceId = row.resource.ownerNamespaceId
  (db.workspace row.resource.id owner.id).filter fun workspace =>
    db.canReadWorkspace user workspace

/-- The skill that replaces a deprecated one, with its locator. -/
def seenReplacement (subject : SubscriptionSubject)
    (row : SubscribedResource) : Option (Uuid × Option (Text × Text)) := do
  let id <- row.resource.deprecationReplacement
  let replacement <- (db.findResource id).filter fun other =>
    !other.deleted && db.seesResource subject.viewer other.id
  let owner := db.directory.namespaceById replacement.ownerNamespaceId
  return (replacement.id,
    owner.map fun space => (space.slug, replacement.slug))

/-- The columns of the second query that come from the content. -/
def contentColumns (subject : SubscriptionSubject)
    (row : SubscribedResource) :
    Option Text × Option Generation × Option RevisionId ×
      Option StoredSnapshot :=
  let release := db.seenRelease subject row
  match subject with
  | .installation _ =>
      (some row.resource.metadata.description, release.map ReleaseRow.version,
        release.map ReleaseRow.revisionId, release.map ReleaseRow.snapshot)
  | .user user =>
      let workspace := db.seenWorkspace user row
      if row.livePrivate.holds then
        (workspace.map fun found => found.metadata.description, none,
          workspace.map WorkspaceRow.revisionId,
          workspace.map WorkspaceRow.snapshot)
      else
        (some row.resource.metadata.description,
          release.map ReleaseRow.version, release.map ReleaseRow.revisionId,
          release.map ReleaseRow.snapshot)

def subscriptionContentRow (subject : SubscriptionSubject)
    (row : SubscribedResource) : Except ApiError SubscriptionContentRow := do
  let (description, version, revisionId, snapshot) :=
    db.contentColumns subject row
  let owner <- okOr row.ownerSlug unexpectedNull
  let description <- okOr description unexpectedNull
  let revisionId <- okOr revisionId unexpectedNull
  let snapshot <- okOr snapshot unexpectedNull
  let livePrivate <- okOr (takesLive subject row) unexpectedNull
  return {
    id := row.resource.id
    owner
    name := row.resource.slug
    description
    generation := row.resource.generation
    version
    revisionId
    snapshot
    pinnedReleaseVersion := row.pinned
    retainOnDelete := row.retain
    retainedAfterDelete := row.resource.deleted
    deprecated := row.resource.deprecated
    replacement := db.seenReplacement subject row
    livePrivate }

/-- The rows of the second query.  A device joins its release, an account does
so if there is one. -/
def joinsContent (subject : SubscriptionSubject) (row : SubscribedResource) :
    Bool :=
  match subject with
  | .installation _ => (db.seenRelease subject row).isSome
  | .user _ => true

end Db

namespace SubscriptionContentRow

variable (row : SubscriptionContentRow)

def wireContent : Except ApiError SubscriptionContent :=
  if row.livePrivate then do
    ensure (!(row.version.isSome || row.retainedAfterDelete))
      (ApiError.new .internal
        "stored private subscription content shape is invalid")
    return .privateWorkspace
  else do
    let version <- okOr row.version
      (ApiError.new .internal "stored release version is missing")
    return .release version.value
      (!row.retainedAfterDelete && row.pinnedReleaseVersion.isNone)

def intoWire : Except ApiError SubscribedSkill := do
  let content <- row.wireContent
  return {
    resourceId := row.id
    locator := locator row.owner row.name
    owner := row.owner
    name := row.name
    description := row.description
    generation := row.generation.value
    revisionId := row.revisionId
    deprecation :=
      if row.deprecated then
        some {
          replacementResourceId := row.replacement.map Prod.fst
          replacementLocator := row.replacement.bind fun found =>
            found.2.map fun named => locator named.1 named.2 }
      else none
    content
    snapshot := row.snapshot
    retainOnDelete := row.retainOnDelete
    retainedAfterDelete := row.retainedAfterDelete }

end SubscriptionContentRow

/-- A row as the client gets it, once its archive has a link. -/
def subscribedSkill (presignGet : Text -> Except Text Text)
    (row : SubscriptionContentRow) : Except ApiError SubscribedSkill := do
  let _ <- (presignGet row.snapshot.snapshotKey).mapError objectStoreApiError
  row.intoWire

namespace Db

variable {κ : Type} [LinearOrder κ]

/-- The catalog of a subscriber, over one snapshot of the tables. -/
def subscriptionCatalog (db : Db) (collation : Collation κ)
    (presignGet : Text -> Except Text Text) (subject : SubscriptionSubject) :
    Except ApiError SubscriptionCatalog := do
  let rows := db.subscribedRows collation subject
  let candidates <- rows.mapM (quarantineCandidate subject)
  let quarantined := candidates.filterMap db.quarantinedResource
  let ids := quarantined.map QuarantinedResource.resourceId
  let contents <-
    (rows.filter fun row =>
      db.joinsContent subject row && !decide (row.resource.id ∈ ids)).mapM
        (db.subscriptionContentRow subject)
  let skills <-
    (contents.filter fun row => !decide (row.id ∈ ids)).mapM
      (subscribedSkill presignGet)
  return { skills, quarantined }

end Db

/-!
## What a subscriber should get
-/

/-- A subscription: the resource, the pin and the retention. -/
structure Subscription where
  resource : ResourceRow
  pinned : Option Generation
  retain : Bool

namespace Db

/-- A live skill that is public, shared, or released by a team of the
subscriber. -/
def OpenTo (db : Db) (subject : SubscriptionSubject) (resource : ResourceRow) :
    Prop :=
  resource.visibility = .pub ∨ exists user, subject = .user user ∧
    (db.sharedWith resource.id user = true ∧
        (db.ownerKind resource = some .user ∨
          resource.latestReleaseVersion.isSome = true) ∨
      db.isTeamMember user resource.ownerNamespaceId = true ∧
        resource.latestReleaseVersion.isSome = true)

/-- A subscription to a skill that the subscriber may follow or keep. -/
structure Desired (db : Db) (subject : SubscriptionSubject)
    (subscription : Subscription) : Prop where
  subscribed : (subscription.resource.id, subscription.pinned,
    subscription.retain) ∈ db.subscriptionsOf subject
  found : db.findResource subscription.resource.id =
    some subscription.resource
  skill : subscription.resource.kind = .skill
  wanted :
    subscription.resource.deleted = false ∧
        db.OpenTo subject subscription.resource ∨
      subscription.resource.deleted = true ∧ subscription.retain = true ∧
        subscription.resource.tombstoneReleaseVersion.isSome = true

/-- A subscription that follows the live workspace of a personal skill. -/
def FollowsWorkspace (db : Db) (subject : SubscriptionSubject)
    (subscription : Subscription) : Prop :=
  subscription.resource.deleted = false ∧ subscription.pinned = none ∧
    subscription.retain = false ∧
      db.ownerKind subscription.resource = some .user ∧
        exists user, subject = .user user ∧
          db.sharedWith subscription.resource.id user = true

/-- The last release of a deleted skill, else the pinned one, else the latest
one. -/
def Subscription.version (subscription : Subscription) : Option Generation :=
  if subscription.resource.deleted then
    subscription.resource.tombstoneReleaseVersion
  else subscription.pinned.or subscription.resource.latestReleaseVersion

/-- The skill, or the release that the subscription stands for, is
quarantined. -/
def Withheld (db : Db) (subject : SubscriptionSubject)
    (subscription : Subscription) : Prop :=
  db.quarantined subscription.resource.id = true ∨
    ¬db.FollowsWorkspace subject subscription ∧
      exists version, Subscription.version subscription = some version ∧
        db.releaseQuarantined subscription.resource.id version = true

/-- The entry carries the content that the subscription stands for. -/
structure Delivers (db : Db) (subject : SubscriptionSubject)
    (subscription : Subscription) (skill : SubscribedSkill) : Prop where
  resource : skill.resourceId = subscription.resource.id ∧
    skill.name = subscription.resource.slug ∧
      skill.generation = subscription.resource.generation.value ∧
        skill.retainOnDelete = subscription.retain ∧
          skill.retainedAfterDelete = subscription.resource.deleted
  live : db.FollowsWorkspace subject subscription ->
    exists owner workspace, owner ∈ db.directory.users ∧
      owner.namespaceId = subscription.resource.ownerNamespaceId ∧
        db.workspace subscription.resource.id owner.id = some workspace ∧
          skill.content = .privateWorkspace ∧
            skill.revisionId = workspace.revisionId ∧
              skill.snapshot = workspace.snapshot ∧
                skill.description = workspace.metadata.description
  released : ¬db.FollowsWorkspace subject subscription ->
    exists version release,
      Subscription.version subscription = some version ∧
        db.findRelease subscription.resource.id version = some release ∧
          skill.content = .release version.value
              (!subscription.resource.deleted &&
                subscription.pinned.isNone) ∧
            skill.revisionId = release.revisionId ∧
              skill.snapshot = release.snapshot ∧
                skill.description =
                  subscription.resource.metadata.description

/-- The catalog lists what the subscriber should get, and nothing else. -/
structure CatalogExact (db : Db) (subject : SubscriptionSubject)
    (catalog : SubscriptionCatalog) : Prop where
  once : forall subscription, db.Desired subject subscription ->
    (catalog.skills.map SubscribedSkill.resourceId ++
      catalog.quarantined.map QuarantinedResource.resourceId).count
        subscription.resource.id = 1
  only : forall id,
    id ∈ catalog.skills.map SubscribedSkill.resourceId ++
        catalog.quarantined.map QuarantinedResource.resourceId ->
      exists subscription, db.Desired subject subscription ∧
        subscription.resource.id = id
  withheld : forall subscription, db.Desired subject subscription ->
    (subscription.resource.id ∈
        catalog.quarantined.map QuarantinedResource.resourceId <->
      db.Withheld subject subscription)
  content : forall skill, skill ∈ catalog.skills ->
    exists subscription, db.Desired subject subscription ∧
      db.Delivers subject subscription skill

end Db
end Denju
