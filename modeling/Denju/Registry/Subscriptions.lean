import Denju.Registry.Visibility

/-!
# Subscriptions

A device or an account subscribes to skills and packs, and a team assigns packs
to its members.  A subscription to a skill follows its latest release, a pinned
one, or the live workspace of a personal skill that is shared with the account.
-/

namespace Denju

open Lib

structure SubscriptionMutationResponse where
  resourceId : Uuid
  subscribed : Bool
  pinnedReleaseVersion : Option Nat
  retainOnDelete : Bool
deriving DecidableEq

def SubscriptionSubject.id : SubscriptionSubject -> Uuid
  | .installation id => id
  | .user id => id

namespace Db

/-!
## Recorded operations
-/

def subjectOperations (db : Db) :
    SubscriptionSubject -> List SubscriptionOperationRow
  | .installation _ => db.subscriptionOperations
  | .user _ => db.accountSubscriptionOperations

def findSubscriptionOperation (db : Db) (subject : SubscriptionSubject)
    (operationId : OperationId) : Option SubscriptionOperationRow :=
  (db.subjectOperations subject).find? fun row =>
    row.subject = subject.id ∧ row.operationId = operationId

def recordSubscriptionOperation (db : Db) (subject : SubscriptionSubject)
    (row : SubscriptionOperationRow) : Except ApiError Db := do
  ensure (db.findSubscriptionOperation subject row.operationId).isNone
    (internalApiError "subscription_operations_pkey")
  match subject with
  | .installation _ =>
      return { db with
        subscriptionOperations := db.subscriptionOperations ++ [row] }
  | .user _ =>
      return { db with
        accountSubscriptionOperations :=
          db.accountSubscriptionOperations ++ [row] }

/-!
## The row of a subscription
-/

def subscribesInstallation (db : Db) (installation resourceId : Uuid) : Bool :=
  db.installationSubscriptions.any fun row =>
    row.installationId = installation ∧ row.resourceId = resourceId

def subscribesUser (db : Db) (user resourceId : Uuid) : Bool :=
  db.subscriptions.any fun row =>
    row.userId = user ∧ row.resourceId = resourceId

/-- Insert the subscription, or set its pin and its retention. -/
def upsertSubscription (db : Db) (subject : SubscriptionSubject)
    (resourceId : Uuid) (pinned : Option Generation) (retain : Bool) : Db :=
  match subject with
  | .installation installation =>
      if db.subscribesInstallation installation resourceId then
        { db with
          installationSubscriptions := updateWhere
            (fun row => row.installationId = installation ∧
              row.resourceId = resourceId)
            (fun row => { row with
              pinnedReleaseVersion := pinned, retainOnDelete := retain })
            db.installationSubscriptions }
      else
        { db with
          installationSubscriptions := db.installationSubscriptions ++
            [⟨installation, resourceId, retain, pinned⟩] }
  | .user user =>
      if db.subscribesUser user resourceId then
        { db with
          subscriptions := updateWhere
            (fun row => row.userId = user ∧ row.resourceId = resourceId)
            (fun row => { row with
              pinnedReleaseVersion := pinned, retainOnDelete := retain })
            db.subscriptions }
      else
        { db with
          subscriptions := db.subscriptions ++
            [⟨resourceId, user, retain, pinned⟩] }

/-- Insert the subscription unless it exists. -/
def insertSubscription (db : Db) (subject : SubscriptionSubject)
    (resourceId : Uuid) : Db :=
  match subject with
  | .installation installation =>
      if db.subscribesInstallation installation resourceId then db
      else
        { db with
          installationSubscriptions := db.installationSubscriptions ++
            [⟨installation, resourceId, false, none⟩] }
  | .user user =>
      if db.subscribesUser user resourceId then db
      else
        { db with
          subscriptions := db.subscriptions ++
            [⟨resourceId, user, false, none⟩] }

def deleteSubscription (db : Db) (subject : SubscriptionSubject)
    (resourceId : Uuid) : Db :=
  match subject with
  | .installation installation =>
      { db with
        installationSubscriptions := deleteWhere
          (fun row => row.installationId = installation ∧
            row.resourceId = resourceId)
          db.installationSubscriptions }
  | .user user =>
      { db with
        subscriptions := deleteWhere
          (fun row => row.userId = user ∧ row.resourceId = resourceId)
          db.subscriptions }

/-!
## Who may subscribe
-/

def isTeamMember (db : Db) (user namespaceId : Uuid) : Bool :=
  (db.directory.membership namespaceId user).isSome

def sharedWithSubject (db : Db) (subject : SubscriptionSubject)
    (resource : ResourceRow) : Bool :=
  match subject with
  | .installation _ => false
  | .user user => !resource.deleted && db.sharedWith resource.id user

/-- A personal skill that is shared with the account is followed live. -/
def personalLiveShare (db : Db) (subject : SubscriptionSubject)
    (resource : ResourceRow) : Bool :=
  db.sharedWithSubject subject resource &&
    decide (db.ownerKind resource = some .user)

/-- The releases of a team skill are open to its members, and to who it had
been shared with. -/
def teamPrivate (db : Db) (subject : SubscriptionSubject)
    (resource : ResourceRow) : Bool :=
  match subject with
  | .installation _ => false
  | .user user =>
      !resource.deleted && decide (db.ownerKind resource = some .team) &&
        resource.latestReleaseVersion.isSome &&
          (db.sharedWithSubject subject resource ||
            db.isTeamMember user resource.ownerNamespaceId)

end Db

namespace Registry

variable (self : Registry)

/-!
## Subscribing to a skill
-/

/-- The release that a subscription is pinned to. -/
def pinnedRelease (db : Db) (viewer : Viewer) (resourceId : Uuid)
    (version : Option UInt64) : Except ApiError (Option Generation) :=
  match version with
  | none => .ok none
  | some version => do
      ensure (version.toNat < 2 ^ 63)
        (ApiError.new .invalidRequest
          "release version exceeds database range")
      let release <- okOr
        (db.releases.find? fun row =>
          decide (row.resourceId = resourceId ∧
            row.version.value = version.toNat) &&
            db.readsRevision viewer row.resourceId row.revisionId)
        (ApiError.new .notFound "requested release does not exist")
      return some release.version

def checkSubscribable (db : Db) (subject : SubscriptionSubject)
    (kind : SubscriptionMutationKind)
    (request : SubscriptionMutationRequest) (resource : ResourceRow) :
    Except ApiError Unit := do
  let live := db.personalLiveShare subject resource
  let isPublic := decide (resource.visibility = .pub)
  let options := request.releaseVersion.isSome || request.retainOnDelete
  ensure (decide (kind = .unsubscribe) ||
      (!resource.deleted &&
        (isPublic || live || db.teamPrivate subject resource)))
    (ApiError.new .notFound "skill is not subscribable")
  ensure (resource.generation.value == request.expectedGeneration.toNat)
    (ApiError.new .generationConflict
      ("resource generation changed to " ++
        toString resource.generation.value))
  ensure (decide (kind = .subscribe) || !options)
    (ApiError.new .invalidRequest
      "unsubscribe does not accept release or retention options")
  ensure (decide (kind = .unsubscribe) || isPublic || !live || !options)
    (ApiError.new .invalidRequest
      "private shared subscriptions follow the live workspace and do not accept release pins or retain-on-delete")

/-- The content that a new subscription asks for is not quarantined. -/
def checkDesiredRelease (db : Db) (subject : SubscriptionSubject)
    (kind : SubscriptionMutationKind) (resource : ResourceRow)
    (pinned : Option Generation) : Except ApiError Unit :=
  match kind with
  | .unsubscribe => .ok ()
  | .subscribe =>
      let desired :=
        if db.personalLiveShare subject resource then none
        else pinned.or resource.latestReleaseVersion
      ensure (match desired with
        | none => !db.quarantined resource.id
        | some version => !db.releaseQuarantined resource.id version)
        (ApiError.new .notFound "skill is quarantined")

def changeSubscription (subject : SubscriptionSubject)
    (kind : SubscriptionMutationKind)
    (request : SubscriptionMutationRequest) (db : Db) :
    Except ApiError (SubscriptionMutationResponse × Db) := do
  let missing := ApiError.new .notFound "skill not found"
  let resource <- okOr
    ((db.findResource request.resourceId).filter fun row =>
      decide (row.kind = .skill) &&
        db.seesResource subject.viewer request.resourceId)
    missing
  let _ <- okOr (db.directory.namespaceById resource.ownerNamespaceId) missing
  checkSubscribable db subject kind request resource
  let pinned <- pinnedRelease db subject.viewer request.resourceId
    request.releaseVersion
  checkDesiredRelease db subject kind resource pinned
  let subscribed := decide (kind = .subscribe)
  let db :=
    if subscribed then
      db.upsertSubscription subject request.resourceId pinned
        request.retainOnDelete
    else db.deleteSubscription subject request.resourceId
  let db <- db.recordSubscriptionOperation subject
    { subject := subject.id
      operationId := request.operationId
      requestHash := request.requestHash
      subscribe := subscribed
      resourceId := request.resourceId
      subscribed
      pinnedReleaseVersion := pinned
      retainOnDelete := request.retainOnDelete
      packOutcome := none }
  return ({
    resourceId := request.resourceId
    subscribed
    pinnedReleaseVersion := request.releaseVersion.map UInt64.toNat
    retainOnDelete := request.retainOnDelete }, db)

def mutateSubscription (subject : SubscriptionSubject)
    (kind : SubscriptionMutationKind)
    (request : SubscriptionMutationRequest) (db : Db) :
    Except ApiError (SubscriptionMutationResponse × Db) := do
  checkPackHash request.requestHash
    (self.hashes.subscription kind
      request.toSubscriptionMutationRequestHashInput)
  match db.findSubscriptionOperation subject request.operationId with
  | some row => do
      ensure (row.requestHash == request.requestHash &&
          row.resourceId == request.resourceId)
        (ApiError.new .operationConflict
          "operation_id was already used with different request content")
      return ({
        resourceId := row.resourceId
        subscribed := row.subscribed
        pinnedReleaseVersion :=
          row.pinnedReleaseVersion.map Generation.value
        retainOnDelete := row.retainOnDelete }, db)
  | none => changeSubscription subject kind request db

/-!
## Subscribing to a pack
-/

/-- The pack that a subscriber locks: one that it may read, or that it already
subscribes to. -/
def lockPackSubscriptionTarget (db : Db) (subject : SubscriptionSubject)
    (packId : Uuid) : Option (ResourceRow × PackStateRow) := do
  let row <- (db.findResource packId).filter fun row =>
    decide (row.kind = .pack) &&
      match subject with
      | .installation installation =>
          row.isPublic || db.subscribesInstallation installation packId
      | .user user =>
          (!row.deleted &&
            (decide (row.visibility = .pub) ||
              db.directory.hasNamespaceAccess user row.ownerNamespaceId)) ||
            db.subscribesUser user packId
  let state <- db.packState packId
  return (row, state)

def packSubscribable (db : Db) (subject : SubscriptionSubject)
    (row : ResourceRow) : Bool :=
  match subject with
  | .installation _ => row.isPublic
  | .user user =>
      !row.deleted &&
        (decide (row.visibility = .pub) ||
          db.directory.ownsNamespace user row.ownerNamespaceId ||
          db.isTeamMember user row.ownerNamespaceId)

/-- A team of the user that assigns the pack. -/
def assigningTeam (db : Db) (user packId : Uuid) : Option Namespace :=
  ((sortByKey (fun space : Namespace => utf8 space.slug)
    db.directory.namespaces).find? fun space =>
      db.teamPackAssignments.any fun row =>
        decide (row.packResourceId = packId ∧
          row.teamNamespaceId = space.id) &&
          db.isTeamMember user space.id)

def checkPackSubscription (db : Db) (subject : SubscriptionSubject)
    (kind : SubscriptionMutationKind) (row : ResourceRow) :
    Except ApiError Unit :=
  match kind, subject with
  | .subscribe, _ => do
      ensure (!db.quarantined row.id) packNotFound
      ensure (packSubscribable db subject row)
        (ApiError.new .notFound "pack is not subscribable")
  | .unsubscribe, .installation _ => .ok ()
  | .unsubscribe, .user user =>
      match assigningTeam db user row.id with
      | none => .ok ()
      | some team =>
          .error (ApiError.new .invalidRequest
            ("pack is enforced by @" ++ String.ofList team.slug ++
              "; the team owner must unassign it before members can unsubscribe"))

def changePackSubscription (subject : SubscriptionSubject)
    (kind : SubscriptionMutationKind) (request : ResourceLifecycleRequest)
    (db : Db) : Except ApiError (PackSubscriptionResponse × Db) := do
  let (row, state) <- okOr
    (lockPackSubscriptionTarget db subject request.resourceId) packNotFound
  ensureGeneration row.generation request.expectedGeneration
  checkPackSubscription db subject kind row
  let subscribed := decide (kind = .subscribe)
  let db :=
    if subscribed then db.insertSubscription subject request.resourceId
    else db.deleteSubscription subject request.resourceId
  let owner := ((db.directory.namespaceById row.ownerNamespaceId).map
    Namespace.slug).getD "deleted".toList
  let outcome : PackSubscriptionResponse :=
    { resourceId := request.resourceId
      locator := packLocator owner row.slug
      subscribed
      generation := row.generation.value
      version := state.currentVersion.value }
  let db <- db.recordSubscriptionOperation subject
    { subject := subject.id
      operationId := request.operationId
      requestHash := request.requestHash
      subscribe := subscribed
      resourceId := request.resourceId
      subscribed
      pinnedReleaseVersion := none
      retainOnDelete := false
      packOutcome := some outcome }
  return (outcome, db)

def mutatePackSubscription (subject : SubscriptionSubject)
    (kind : SubscriptionMutationKind) (request : ResourceLifecycleRequest)
    (db : Db) : Except ApiError (PackSubscriptionResponse × Db) := do
  checkPackHash request.requestHash
    (self.hashes.packSubscription kind
      request.toResourceLifecycleRequestHashInput)
  match db.findSubscriptionOperation subject request.operationId with
  | some row => do
      ensure (row.requestHash == request.requestHash &&
          row.subscribe == decide (kind = .subscribe))
        (ApiError.new .operationConflict
          "operation_id was already used with different subscription content")
      let outcome <- okOr row.packOutcome
        (ApiError.new .internal
          "pack subscription replay is missing its committed outcome")
      return (outcome, db)
  | none => changePackSubscription subject kind request db

end Registry

/-!
## Team operations
-/

namespace TeamOperationOutcome

def assignment? (kind : TeamPackAssignmentMutationKind) :
    TeamOperationOutcome -> Option TeamPackAssignmentResponse
  | .assignment response =>
      if response.assigned = decide (kind = .assign) then some response
      else none
  | _ => none

def memberRemove? : TeamOperationOutcome -> Option TeamMutationResponse
  | .memberRemove response => some response
  | _ => none

def leave? : TeamOperationOutcome -> Option TeamLeaveResponse
  | .leave response => some response
  | _ => none

end TeamOperationOutcome

namespace Db

/-- The stored answer of a team operation of the selected kind. -/
def replayTeamOperation {β : Type} (db : Db)
    (select : TeamOperationOutcome -> Option β) (user : Uuid)
    (operationId : OperationId) (hash : RequestHash) :
    Except ApiError (Option β) :=
  match findOperation db.teamOperations user operationId with
  | none => .ok none
  | some row => do
      let differs := ApiError.new .operationConflict
        "operation_id was already used with different team mutation content"
      ensure (row.requestHash == hash) differs
      let outcome <- okOr (select row.outcome) differs
      return some outcome

def recordTeamOperation (db : Db) (row : OperationRow TeamOperationOutcome) :
    Except ApiError Db := do
  let rows <- recordOperation db.teamOperations row "team_operations_pkey"
  return { db with teamOperations := rows }

theorem recordTeamOperation_eq_ok {db db' : Db}
    {row : OperationRow TeamOperationOutcome}
    (h : db.recordTeamOperation row = .ok db') :
    exists teamOperations, db' = { db with teamOperations } := by
  rcases bind_eq_ok.mp h with ⟨rows, _, h⟩
  cases h
  exact ⟨rows, rfl⟩

end Db

namespace Registry

variable (self : Registry)

def checkTeamHash (supplied : RequestHash)
    (expected : Except Text RequestHash) : Except ApiError Unit :=
  checkRequestHash supplied expected
    "request_hash does not match the canonical team mutation payload"

/-!
## Assigning a pack to a team
-/

/-- The pack that the owner of a team locks for an assignment. -/
def lockTeamAssignmentPack (db : Db) (packId team : Uuid) :
    Option ResourceRow :=
  (db.findResource packId).filter fun row =>
    decide (row.kind = .pack) &&
      ((!row.deleted &&
          (decide (row.visibility = .pub) || row.ownerNamespaceId == team)) ||
        db.teamPackAssignments.any fun assignment =>
          assignment.teamNamespaceId = team ∧
            assignment.packResourceId = packId)

/-- Assign or unassign the pack.  The flag says whether a row changed. -/
def changeAssignment (db : Db) (kind : TeamPackAssignmentMutationKind)
    (team packId : Uuid) : Bool × Db :=
  let assigned := db.teamPackAssignments.any fun row =>
    row.teamNamespaceId = team ∧ row.packResourceId = packId
  match kind with
  | .assign =>
      if assigned then (false, db)
      else
        (true, { db with
          teamPackAssignments := db.teamPackAssignments ++ [⟨team, packId⟩] })
  | .unassign =>
      (assigned, { db with
        teamPackAssignments := deleteWhere
          (fun row => row.teamNamespaceId = team ∧ row.packResourceId = packId)
          db.teamPackAssignments })

def assignTeamPack (kind : TeamPackAssignmentMutationKind)
    (authority : UserAuthority) (request : TeamPackAssignmentRequest)
    (db : Db) : Except ApiError (TeamPackAssignmentResponse × Db) := do
  let missing := ApiError.new .notFound "team not found"
  let space <- okOr (db.directory.namespaceBySlug request.team) missing
  let _ <- okOr (db.directory.team space.id) missing
  let membership <- okOr
    (db.directory.membership space.id authority.userId) missing
  ensure (decide (membership.role = .owner))
    (ApiError.new .unauthorized
      "only the team owner may change enforced pack assignments")
  let pack <- okOr
    (lockTeamAssignmentPack db request.packResourceId space.id) packNotFound
  ensure (decide (kind ≠ .assign) || decide (pack.visibility = .pub) ||
      pack.ownerNamespaceId == space.id)
    (ApiError.new .invalidRequest
      "assigned pack must be public or owned by the assigning team so every member can read it")
  let (changed, db) := changeAssignment db kind space.id request.packResourceId
  let owner := ((db.directory.namespaceById pack.ownerNamespaceId).map
    Namespace.slug).getD []
  let outcome : TeamPackAssignmentResponse :=
    { teamNamespaceId := space.id
      team := '@' :: request.team
      packResourceId := request.packResourceId
      packLocator := packLocator owner pack.slug
      assigned := decide (kind = .assign)
      changed }
  let db <- db.recordTeamOperation
    { userId := authority.userId
      operationId := request.operationId
      requestHash := request.requestHash
      target := space.id
      outcome := .assignment outcome }
  return (outcome, db)

def mutateTeamPackAssignment (kind : TeamPackAssignmentMutationKind)
    (userId : Uuid) (request : TeamPackAssignmentRequest) (db : Db) :
    Except ApiError (TeamPackAssignmentResponse × Db) := do
  let authority <- db.directory.userAuthority userId
  checkTeamHash request.requestHash
    (self.hashes.teamPackAssignment kind
      request.toTeamPackAssignmentRequestHashInput)
  let replay <- db.replayTeamOperation (TeamOperationOutcome.assignment? kind)
    authority.userId request.operationId request.requestHash
  match replay with
  | some outcome => return (outcome, db)
  | none => assignTeamPack kind authority request db

/-!
## What these calls write
-/

section Written

variable {self} {db db' : Db} {subject : SubscriptionSubject}

/-- A change of the subscriptions of a subject, and of its record. -/
def Subscribed (db db' : Db) : Prop :=
  exists installationSubscriptions subscriptions subscriptionOperations
      accountSubscriptionOperations,
    db' = { db with
      installationSubscriptions, subscriptions, subscriptionOperations,
      accountSubscriptionOperations }

theorem recordSubscriptionOperation_eq_ok {row : SubscriptionOperationRow}
    {start : Db} (hstart : Subscribed db start)
    (h : start.recordSubscriptionOperation subject row = .ok db') :
    Subscribed db db' := by
  rcases hstart with ⟨_, _, _, _, rfl⟩
  rcases bind_eq_ok.mp h with ⟨_, _, h⟩
  cases subject with
  | installation id =>
      cases h
      exact ⟨_, _, _, _, rfl⟩
  | user id =>
      cases h
      exact ⟨_, _, _, _, rfl⟩

theorem upsertSubscription_subscribed {resourceId : Uuid}
    {pinned : Option Generation} {retain : Bool} :
    Subscribed db (db.upsertSubscription subject resourceId pinned retain) := by
  unfold Db.upsertSubscription
  repeat' split
  all_goals exact ⟨_, _, _, _, rfl⟩

theorem insertSubscription_subscribed {resourceId : Uuid} :
    Subscribed db (db.insertSubscription subject resourceId) := by
  unfold Db.insertSubscription
  repeat' split
  all_goals exact ⟨_, _, _, _, rfl⟩

theorem deleteSubscription_subscribed {resourceId : Uuid} :
    Subscribed db (db.deleteSubscription subject resourceId) := by
  unfold Db.deleteSubscription
  split
  all_goals exact ⟨_, _, _, _, rfl⟩

theorem mutateSubscription_eq_ok {kind : SubscriptionMutationKind}
    {request : SubscriptionMutationRequest}
    {outcome : SubscriptionMutationResponse}
    (h : self.mutateSubscription subject kind request db =
      .ok (outcome, db')) : Subscribed db db' := by
  rcases bind_eq_ok.mp h with ⟨_, _, h⟩
  split at h
  · rcases bind_eq_ok.mp h with ⟨_, _, h⟩
    cases h
    exact ⟨_, _, _, _, rfl⟩
  · rcases bind_eq_ok.mp h with ⟨resource, _, h⟩
    rcases bind_eq_ok.mp h with ⟨_, _, h⟩
    rcases bind_eq_ok.mp h with ⟨_, _, h⟩
    rcases bind_eq_ok.mp h with ⟨pinned, _, h⟩
    rcases bind_eq_ok.mp h with ⟨_, _, h⟩
    rcases bind_eq_ok.mp h with ⟨recorded, hrecorded, h⟩
    cases h
    refine recordSubscriptionOperation_eq_ok ?_ hrecorded
    split
    · exact upsertSubscription_subscribed
    · exact deleteSubscription_subscribed

theorem mutatePackSubscription_eq_ok {kind : SubscriptionMutationKind}
    {request : ResourceLifecycleRequest} {outcome : PackSubscriptionResponse}
    (h : self.mutatePackSubscription subject kind request db =
      .ok (outcome, db')) : Subscribed db db' := by
  rcases bind_eq_ok.mp h with ⟨_, _, h⟩
  split at h
  · rcases bind_eq_ok.mp h with ⟨_, _, h⟩
    rcases bind_eq_ok.mp h with ⟨_, _, h⟩
    cases h
    exact ⟨_, _, _, _, rfl⟩
  · rcases bind_eq_ok.mp h with ⟨⟨row, state⟩, _, h⟩
    rcases bind_eq_ok.mp h with ⟨_, _, h⟩
    rcases bind_eq_ok.mp h with ⟨_, _, h⟩
    rcases bind_eq_ok.mp h with ⟨recorded, hrecorded, h⟩
    cases h
    refine recordSubscriptionOperation_eq_ok ?_ hrecorded
    split
    · exact insertSubscription_subscribed
    · exact deleteSubscription_subscribed

theorem changeAssignment_frame (db : Db)
    (kind : TeamPackAssignmentMutationKind) (team packId : Uuid) :
    exists changed teamPackAssignments,
      changeAssignment db kind team packId =
        (changed, { db with teamPackAssignments }) := by
  unfold changeAssignment
  dsimp only
  repeat' split
  all_goals exact ⟨_, _, rfl⟩

theorem mutateTeamPackAssignment_eq_ok
    {kind : TeamPackAssignmentMutationKind} {userId : Uuid}
    {request : TeamPackAssignmentRequest}
    {outcome : TeamPackAssignmentResponse}
    (h : self.mutateTeamPackAssignment kind userId request db =
      .ok (outcome, db')) :
    exists teamPackAssignments teamOperations,
      db' = { db with teamPackAssignments, teamOperations } := by
  rcases bind_eq_ok.mp h with ⟨authority, _, h⟩
  rcases bind_eq_ok.mp h with ⟨_, _, h⟩
  rcases bind_eq_ok.mp h with ⟨replay, _, h⟩
  cases replay with
  | some stored =>
    cases h
    exact ⟨_, _, rfl⟩
  | none =>
    rcases bind_eq_ok.mp h with ⟨space, _, h⟩
    rcases bind_eq_ok.mp h with ⟨_, _, h⟩
    rcases bind_eq_ok.mp h with ⟨membership, _, h⟩
    rcases bind_eq_ok.mp h with ⟨_, _, h⟩
    rcases bind_eq_ok.mp h with ⟨pack, _, h⟩
    rcases bind_eq_ok.mp h with ⟨_, _, h⟩
    rcases changeAssignment_frame db kind space.id request.packResourceId with
      ⟨changed, assignments, hassigned⟩
    rw [hassigned] at h
    rcases bind_eq_ok.mp h with ⟨recorded, hrecorded, h⟩
    rcases Db.recordTeamOperation_eq_ok hrecorded with ⟨operations, rfl⟩
    cases h
    exact ⟨_, _, rfl⟩

end Written

end Registry
end Denju
