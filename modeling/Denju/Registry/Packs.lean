import Denju.Registry.Lifecycle

/-!
# Packs

A pack collects skills.  Every change of its members makes a new version, which
keeps the release or the revision that each member had at that moment.  A pack
that follows the latest releases of a member advances with them.
-/

namespace Denju

open Lib

def packLocator (owner name : Text) : Text :=
  "@".toList ++ owner ++ "/packs/".toList ++ name

def packNotFound : ApiError :=
  ApiError.new .notFound "pack not found"

structure PackRow where
  id : Uuid
  ownerNamespaceId : Uuid
  owner : Text
  name : Text
  generation : Generation
  visibility : Visibility
  currentVersion : Generation
deriving DecidableEq

structure ResolvedPackMember where
  skillResourceId : Uuid
  pinnedReleaseVersion : Option Generation
  resolvedReleaseVersion : Option Generation
  resolvedRevisionId : RevisionId
deriving DecidableEq

/-- A release event of a skill, as a pack reads it. -/
structure PackReleaseEvent where
  id : Nat
  skillResourceId : Uuid
  releaseVersion : Nat
  revisionId : RevisionId
deriving DecidableEq

def AuthorityEventRow.packReleaseEvent (row : AuthorityEventRow) :
    Option PackReleaseEvent :=
  row.release.map fun release =>
    { id := row.id
      skillResourceId := row.resourceId
      releaseVersion := release.releaseVersion
      revisionId := release.revisionId }

def PackRevisionMemberRow.resolved (row : PackRevisionMemberRow) :
    ResolvedPackMember where
  skillResourceId := row.skillResourceId
  pinnedReleaseVersion := row.pinnedReleaseVersion
  resolvedReleaseVersion := row.resolvedReleaseVersion
  resolvedRevisionId := row.resolvedRevisionId

/-- The generation that the client expects is the stored one. -/
def ensureGeneration (stored : Generation) (expected : UInt64) :
    Except ApiError Unit :=
  ensure (stored.value == expected.toNat)
    (ApiError.new .generationConflict
      ("resource generation changed to " ++ toString stored.value))

def checkPackHash (supplied : RequestHash)
    (expected : Except Text RequestHash) : Except ApiError Unit :=
  checkRequestHash supplied expected
    "request_hash does not match the canonical request payload"

namespace Db

/-!
## Rows of packs
-/

def packState (db : Db) (id : Uuid) : Option PackStateRow :=
  db.packStates.find? fun row => row.resourceId = id

/-- A resource with its owner and its state as a pack. -/
def packRow (db : Db) (row : ResourceRow) : Option PackRow := do
  let owner <- db.directory.namespaceById row.ownerNamespaceId
  let state <- db.packState row.id
  return {
    id := row.id
    ownerNamespaceId := row.ownerNamespaceId
    owner := owner.slug
    name := row.slug
    generation := row.generation
    visibility := row.visibility
    currentVersion := state.currentVersion }

def sessionReads (db : Db) : Session -> Uuid -> Bool
  | .actor user, id => db.canReadResource user id
  | .worker, _ => true

/-- The live pack that a session locks. -/
def lockPack (db : Db) (session : Session) (id : Uuid) : Option PackRow :=
  ((db.findResource id).filter fun row =>
    decide (row.kind = .pack) && !row.deleted && db.sessionReads session id &&
      db.canManage session id).bind db.packRow

def loadOwnedPackForUpdate (db : Db) (user resourceId namespaceId : Uuid) :
    Except ApiError PackRow := do
  let pack <- okOr (db.lockPack (.actor user) resourceId) packNotFound
  ensure (pack.ownerNamespaceId == namespaceId) packNotFound
  return pack

def packVersionRows (db : Db) (packId : Uuid) (version : Generation) :
    List PackRevisionMemberRow :=
  sortByKey PackRevisionMemberRow.ordinal
    (db.packRevisionMembers.filter fun row =>
      row.packResourceId = packId ∧ row.packVersion = version)

def loadPackRevisionMembers (db : Db) (packId : Uuid)
    (version : Generation) : List ResolvedPackMember :=
  (db.packVersionRows packId version).map PackRevisionMemberRow.resolved

def packSummary (db : Db) (pack : PackRow) : PackSummary where
  resourceId := pack.id
  locator := packLocator pack.owner pack.name
  generation := pack.generation.value
  version := pack.currentVersion.value
  visibility := pack.visibility
  memberCount := (db.packVersionRows pack.id pack.currentVersion).length
  degraded := false

/-!
## Recorded operations
-/

/-- The stored answer of a pack operation of the selected kind. -/
def replayPackOperation {β : Type} (db : Db)
    (select : PackOutcome -> Option β) (user : Uuid)
    (operationId : OperationId) (hash : RequestHash) :
    Except ApiError (Option β) :=
  match findOperation db.packOperations user operationId with
  | none => .ok none
  | some row => do
      let differs := ApiError.new .operationConflict
        "operation_id was already used with different pack content"
      ensure (row.requestHash == hash) differs
      let outcome <- okOr (select row.outcome) differs
      return some outcome

def recordPackOperation (db : Db) (row : OperationRow PackOutcome) :
    Except ApiError Db := do
  let rows <- recordOperation db.packOperations row "pack_operations_pkey"
  return { db with packOperations := rows }

/-!
## Versions
-/

def packMemberRows (packId : Uuid) (version : Generation)
    (members : List ResolvedPackMember) : List PackRevisionMemberRow :=
  members.zipIdx.map fun member =>
    { packResourceId := packId
      packVersion := version
      ordinal := member.2
      skillResourceId := member.1.skillResourceId
      pinnedReleaseVersion := member.1.pinnedReleaseVersion
      resolvedReleaseVersion := member.1.resolvedReleaseVersion
      resolvedRevisionId := member.1.resolvedRevisionId }

/-- The version of a pack that records these members, under its number. -/
def writePackVersion (db : Db) (packId : Uuid)
    (version generation : Generation) (members : List ResolvedPackMember)
    (source : Option Nat) : Db :=
  { db with
    packRevisions := db.packRevisions ++ [⟨packId, version, source⟩]
    packRevisionMembers :=
      db.packRevisionMembers ++ packMemberRows packId version members
    packStates := updateWhere (fun row => row.resourceId = packId)
      (fun row => { row with currentVersion := version }) db.packStates
    resources := updateWhere (fun row => row.id = packId)
      (fun row => { row with
        generation
        latestReleaseVersion :=
          if row.visibility = .pub then some version
          else row.latestReleaseVersion })
      db.resources }

/-- Store the next version of a pack and make it the current one. -/
def insertPackRevision (db : Db) (pack : PackRow)
    (members : List ResolvedPackMember) (source : Option Nat) :
    Except ApiError (PackRow × Db) := do
  let version <- nextGeneration pack.currentVersion
  let generation <- nextGeneration pack.generation
  ensure (!db.packRevisions.any fun row =>
      row.packResourceId = pack.id ∧ row.version = version)
    (internalApiError "pack_revisions_pkey")
  ensure (!db.packRevisions.any fun row =>
      row.packResourceId = pack.id ∧ row.sourceReleaseEventId.isSome ∧
        row.sourceReleaseEventId = source)
    (internalApiError "pack_revisions_release_event_idx")
  ensure (members.length ≤ 2 ^ 31)
    (ApiError.new .internal "pack has too many members")
  ensure (decide (members.map ResolvedPackMember.skillResourceId).Nodup &&
      !db.packRevisionMembers.any fun row =>
        row.packResourceId = pack.id ∧ row.packVersion = version)
    (internalApiError "pack_revision_members_pkey")
  return ({ pack with generation, currentVersion := version },
    db.writePackVersion pack.id version generation members source)

/-!
## Resolving members
-/

/-- The owner and the name of a skill that a user sees. -/
def packMemberKey (db : Db) (user skillId : Uuid) : Option (Text × Text) :=
  ((db.findResource skillId).filter fun _ =>
    db.canReadResource user skillId).map fun row =>
      (((db.directory.namespaceById row.ownerNamespaceId).map
        Namespace.slug).getD [], row.slug)

/-- The order of owner, name and identifier. -/
def packMemberOrder (db : Db) (user skillId : Uuid) :
    Lex (Bytes × Lex (Bytes × List UInt8)) :=
  let key := (db.packMemberKey user skillId).getD ([], [])
  toLex (utf8 key.1, toLex (utf8 key.2, skillId.toList))

def orderResolvedMembers (db : Db) (user : Uuid)
    (members : List ResolvedPackMember) :
    Except ApiError (List ResolvedPackMember) :=
  if members.length < 2 then .ok members
  else do
    let ids := (members.map ResolvedPackMember.skillResourceId).dedup
    ensure ((ids.filter fun id =>
        (db.packMemberKey user id).isSome).length == members.length)
      (ApiError.new .internal
        "pack membership references a missing skill resource")
    return sortByKey
      (fun member => db.packMemberOrder user member.skillResourceId) members

/-- The row of a skill that a pack may take as its member. -/
def readableMember (db : Db) (user namespaceId : Uuid)
    (publicAudience teamAudience : Bool) (skillId : Uuid) :
    Except ApiError ResourceRow := do
  let row <- okOr
    ((db.findResource skillId).filter fun row =>
      decide (row.kind = .skill) && db.canReadResource user skillId)
    (ApiError.new .notFound "pack member skill not found")
  let isPublic := decide (row.visibility = .pub)
  ensure (!row.deleted && (!publicAudience || isPublic))
    (ApiError.new .invalidRequest
      "pack member is not readable by the pack's full audience")
  let kind := db.ownerKind row
  let sameNamespace := row.ownerNamespaceId == namespaceId
  let shared := db.sharedWith skillId user
  let teamMember :=
    (db.directory.membership row.ownerNamespaceId user).isSome
  let ownWorkspace := (db.workspace skillId user).any (db.canReadWorkspace user)
  let readable :=
    if publicAudience then isPublic
    else if teamAudience then
      isPublic || (decide (kind = some .team) && sameNamespace)
    else
      isPublic ||
        (decide (kind = some .user) && (sameNamespace || shared)) ||
        (decide (kind = some .team) &&
          ((row.latestReleaseVersion.isSome && (teamMember || shared)) ||
            (teamMember && ownWorkspace)))
  ensure readable
    (ApiError.new .notFound "pack member skill is not readable")
  return row

def releaseVersionQuarantined (db : Db) (id : Uuid) (version : Nat) : Bool :=
  db.quarantines.any fun row =>
    row.resourceId = id ∧ row.lifted = false ∧
      (row.releaseVersion = none ∨
        row.releaseVersion.map Generation.value = some version)

/-- The release of a skill that a user sees under a version. -/
def visibleRelease (db : Db) (session : Session) (skillId : Uuid)
    (version : Nat) : Option ReleaseRow :=
  db.releases.find? fun row =>
    decide (row.resourceId = skillId ∧ row.version.value = version) &&
      match session with
      | .actor user => db.releaseVisible user row
      | .worker => true

def releaseMember (db : Db) (user skillId : Uuid) (version : Nat)
    (pinned : Bool) (missing : ApiError) :
    Except ApiError ResolvedPackMember := do
  ensure (!db.releaseVersionQuarantined skillId version)
    (ApiError.new .notFound "pack member skill release is quarantined")
  let release <- okOr (db.visibleRelease (.actor user) skillId version) missing
  return {
    skillResourceId := skillId
    pinnedReleaseVersion := if pinned then some release.version else none
    resolvedReleaseVersion := some release.version
    resolvedRevisionId := release.revisionId }

/-- The workspace that an unreleased member is taken from. -/
def memberWorkspace (db : Db) (user : Uuid) (row : ResourceRow) :
    Option WorkspaceRow :=
  if db.ownerKind row = some .team then
    (db.workspace row.id user).filter (db.canReadWorkspace user)
  else
    db.workspaces.find? fun workspace =>
      decide (workspace.resourceId = row.id) &&
        db.directory.ownsNamespace workspace.workspaceUserId
          row.ownerNamespaceId &&
          db.canReadWorkspace user workspace

def workspaceMember (db : Db) (user : Uuid) (publicAudience teamAudience : Bool)
    (row : ResourceRow) : Except ApiError ResolvedPackMember := do
  ensure (!publicAudience)
    (ApiError.new .invalidRequest
      "public pack members must have a published release")
  ensure (!teamAudience)
    (ApiError.new .invalidRequest
      "team pack members must have a team-visible published release")
  ensure (!db.quarantined row.id)
    (ApiError.new .notFound "pack member skill is quarantined")
  let workspace <- okOr (db.memberWorkspace user row)
    (ApiError.new .notFound "pack member workspace not found")
  return {
    skillResourceId := row.id
    pinnedReleaseVersion := none
    resolvedReleaseVersion := none
    resolvedRevisionId := workspace.revisionId }

/-- What a skill contributes to a pack: the pinned release, the latest one, or
the head of a private workspace. -/
def resolveMember (db : Db) (user namespaceId : Uuid)
    (publicAudience teamAudience : Bool) (skillId : Uuid)
    (pinned : Option Nat) : Except ApiError ResolvedPackMember := do
  let row <- db.readableMember user namespaceId publicAudience teamAudience
    skillId
  match pinned with
  | some version => do
      ensure (version < 2 ^ 63)
        (ApiError.new .invalidRequest "release version is too large")
      db.releaseMember user skillId version true
        (ApiError.new .notFound "pinned skill release not found")
  | none =>
      match row.latestReleaseVersion with
      | some version =>
          db.releaseMember user skillId version.value false
            (internalApiError
              "no rows returned by a query that expected to return at least one row")
      | none => db.workspaceMember user publicAudience teamAudience row

/-- The members of a pack that a user sees, resolved again. -/
def resolveAllMembers (db : Db) (user namespaceId : Uuid)
    (publicAudience teamAudience : Bool) (packId : Uuid) :
    Except ApiError (List ResolvedPackMember) :=
  (sortByKey (fun row : PackMemberRow =>
      db.packMemberOrder user row.skillResourceId)
    (db.packMembers.filter fun row =>
      decide (row.packResourceId = packId) &&
        (db.packMemberKey user row.skillResourceId).isSome)).mapM fun row =>
    db.resolveMember user namespaceId publicAudience teamAudience
      row.skillResourceId (row.pinnedReleaseVersion.map Generation.value)

/-!
## Following releases
-/

def findPackMember (db : Db) (packId skillId : Uuid) :
    Option PackMemberRow :=
  db.packMembers.find? fun row =>
    row.packResourceId = packId ∧ row.skillResourceId = skillId

def packHasEvent (db : Db) (packId : Uuid) (event : Nat) : Bool :=
  db.packRevisions.any fun row =>
    row.packResourceId = packId ∧ row.sourceReleaseEventId = some event

/-- The pack follows the skill since before the event. -/
def packFollows (db : Db) (packId : Uuid) (event : PackReleaseEvent) : Bool :=
  (db.findPackMember packId event.skillResourceId).any fun row =>
    row.pinnedReleaseVersion.isNone && decide (row.followAfterEventId < event.id)

def setResolved (event : PackReleaseEvent) (version : Generation)
    (member : ResolvedPackMember) : ResolvedPackMember :=
  if member.skillResourceId = event.skillResourceId then
    { member with
      resolvedReleaseVersion := some version
      resolvedRevisionId := event.revisionId }
  else member

/-- Advance a pack by one release event, unless it does not apply. -/
def advancePackEvent (db : Db) (session : Session) (packId : Uuid)
    (event : PackReleaseEvent) : Except ApiError (Option PackRow × Db) := do
  if !db.packFollows packId event || db.packHasEvent packId event.id then
    return (none, db)
  let release <- okOr
    (db.visibleRelease session event.skillResourceId event.releaseVersion)
    (ApiError.new .internal "release event points to a missing release")
  ensure (release.revisionId == event.revisionId)
    (ApiError.new .internal
      "release event revision does not match immutable release authority")
  match db.lockPack session packId with
  | none => return (none, db)
  | some pack => do
      let members := db.loadPackRevisionMembers pack.id pack.currentVersion
      ensure (members.any fun member =>
          member.skillResourceId = event.skillResourceId)
        (ApiError.new .internal
          "current pack intent and revision membership diverged")
      let (pack, db) <- db.insertPackRevision pack
        (members.map (setResolved event release.version)) (some event.id)
      return (some pack, db)

/-- The release events that a pack has still to apply. -/
def packPendingReleaseEvents (db : Db) (user packId : Uuid) (limit : Nat) :
    List PackReleaseEvent :=
  if db.canManageResource user packId then
    ((sortByKey AuthorityEventRow.id db.authorityEvents).filterMap
      AuthorityEventRow.packReleaseEvent |>.filter fun event =>
        db.packFollows packId event &&
          !db.packHasEvent packId event.id).take (min limit 1024)
  else []

def packMutationCatchUpLimit : Nat :=
  1024

/-- Advance the pack by one event and remember its last generation. -/
def catchUpStep (session : Session) (packId : Uuid)
    (state : Option Generation × PackRow × Db) (event : PackReleaseEvent) :
    Except ApiError (Option Generation × PackRow × Db) := do
  let (advanced, db) <- state.2.2.advancePackEvent session packId event
  match advanced with
  | none => return (state.1, state.2.1, db)
  | some pack =>
      let last := state.2.1
      return (some pack.generation,
        { last with
          generation := pack.generation
          currentVersion := pack.currentVersion },
        db)

def lockAndCatchUpPack (db : Db) (user : Uuid) (pack : PackRow) :
    Except ApiError (Option Generation × PackRow × Db) := do
  let events := db.packPendingReleaseEvents user pack.id
    (packMutationCatchUpLimit + 1)
  ensure (events.length ≤ packMutationCatchUpLimit)
    (ApiError.new .unavailable
      "pack has too many pending release events; drain pack updates and retry")
  events.foldlM (catchUpStep (.actor user) pack.id) (none, pack, db)

end Db

def packAdvancedConflict (generation : Generation) : ApiError :=
  ApiError.new .generationConflict
    ("pack advanced through pending skill releases to generation " ++
      toString generation.value ++ "; retry from current state")

/-- Continue with a pack that has no pending release.  If there were some, they
are applied and kept, and the caller is told to retry. -/
def onCurrentPack {α : Type} (user : Uuid) (pack : PackRow)
    (change : PackRow -> Db -> Except ApiError (α × Db)) (db : Db) :
    Except ApiError (Except ApiError α × Db) := do
  let (advanced, pack, db) <- db.lockAndCatchUpPack user pack
  match advanced with
  | some generation =>
      return (.error (packAdvancedConflict generation),
        db.enqueueResourceWake pack.id generation.value)
  | none => do
      let (outcome, db) <- change pack db
      return (.ok outcome, db)

def PackOutcome.create? : PackOutcome -> Option PackSummary
  | .create pack => some pack
  | _ => none

def PackOutcome.mutation? (kind : PackMutationKind) :
    PackOutcome -> Option PackMutationResponse
  | .add outcome => if kind = .add then some outcome else none
  | .remove outcome => if kind = .remove then some outcome else none
  | _ => none

def PackOutcome.publish? : PackOutcome -> Option PackMutationResponse
  | .publish outcome => some outcome
  | _ => none

def PackMutationKind.outcome :
    PackMutationKind -> PackMutationResponse -> PackOutcome
  | .add => .add
  | .remove => .remove

namespace Registry

variable (self : Registry)

/-!
## Creating a pack
-/

def emptyPackMetadata : SkillMetadata where
  description := []
  license := none
  compatibility := none

def packTaken (db : Db) (namespaceId : Uuid) (slug : Text) : Bool :=
  db.resources.any fun row =>
    row.ownerNamespaceId = namespaceId ∧ row.kind = .pack ∧ row.slug = slug ∧
      row.deleted = false

/-- The rows of a new pack, which has no members. -/
def insertPack (db : Db) (resourceId namespaceId : Uuid) (name : Text) :
    Except ApiError Db := do
  let db <- db.insertResource
    { id := resourceId
      ownerNamespaceId := namespaceId
      slug := name
      kind := .pack
      visibility := .priv
      metadata := emptyPackMetadata
      generation := .one
      latestReleaseVersion := none
      deprecated := false
      deprecationReplacement := none
      deleted := false }
  ensure (db.packState resourceId).isNone (internalApiError "pack_state_pkey")
  return { db with
    packStates := db.packStates ++ [⟨resourceId, .one⟩]
    packRevisions := db.packRevisions ++ [⟨resourceId, .one, none⟩] }

def createPack (newResourceId userId : Uuid) (request : PackCreateRequest)
    (db : Db) : Except ApiError (PackSummary × Db) := do
  let authority <- db.directory.userAuthority userId
  checkPackHash request.requestHash
    (self.hashes.packCreate request.toPackCreateRequestHashInput)
  let owner <- db.directory.authorizeNamespacePublish authority request.owner
  let replay <- db.replayPackOperation PackOutcome.create? authority.userId
    request.operationId request.requestHash
  match replay with
  | some outcome => return (outcome, db)
  | none => do
      ensure (!packTaken db owner.namespaceId request.name)
        (ApiError.new .invalidRequest "pack name is already in use")
      let db <- insertPack db newResourceId owner.namespaceId request.name
      let outcome : PackSummary :=
        { resourceId := newResourceId
          locator := packLocator request.owner request.name
          generation := 1
          version := 1
          visibility := .priv
          memberCount := 0
          degraded := false }
      let db <- db.recordPackOperation
        { userId := authority.userId
          operationId := request.operationId
          requestHash := request.requestHash
          target := newResourceId
          outcome := .create outcome }
      return (outcome, db)

/-!
## Changing the members
-/

structure PackEdit where
  members : List ResolvedPackMember
  changed : Bool
  db : Db

/-- Put the resolved member in place of the one for its skill, or last. -/
def replaceMember (resolved : ResolvedPackMember)
    (members : List ResolvedPackMember) : List ResolvedPackMember :=
  if members.any fun member =>
      member.skillResourceId = resolved.skillResourceId then
    members.map fun member =>
      if member.skillResourceId = resolved.skillResourceId then resolved
      else member
  else members ++ [resolved]

def upsertPackMember (db : Db) (row : PackMemberRow) : Db :=
  if (db.findPackMember row.packResourceId row.skillResourceId).isSome then
    { db with
      packMembers := updateWhere
        (fun old => old.packResourceId = row.packResourceId ∧
          old.skillResourceId = row.skillResourceId)
        (fun old => { old with
          pinnedReleaseVersion := row.pinnedReleaseVersion
          followAfterEventId := row.followAfterEventId })
        db.packMembers }
  else { db with packMembers := db.packMembers ++ [row] }

def addMember (authority : UserAuthority)
    (target : NamespacePublishAuthority) (pack : PackRow) (edit : PackEdit)
    (member : PackMemberTarget) : Except ApiError PackEdit := do
  let resolved <- edit.db.resolveMember authority.userId target.namespaceId
    (decide (pack.visibility = .pub)) target.isTeam member.resourceId
    (member.releaseVersion.map UInt64.toNat)
  let previous := (edit.db.findPackMember pack.id member.resourceId).map
    PackMemberRow.pinnedReleaseVersion
  if previous = some resolved.pinnedReleaseVersion then
    return edit
  else
    return {
      members := replaceMember resolved edit.members
      changed := true
      db := upsertPackMember edit.db
        { packResourceId := pack.id
          skillResourceId := member.resourceId
          pinnedReleaseVersion := resolved.pinnedReleaseVersion
          followAfterEventId := edit.db.authorityEventSequence } }

def removeMember (pack : PackRow) (edit : PackEdit)
    (member : PackMemberTarget) : PackEdit :=
  if (edit.db.findPackMember pack.id member.resourceId).isSome then
    { members := deleteWhere
        (fun other => other.skillResourceId = member.resourceId) edit.members
      changed := true
      db := { edit.db with
        packMembers := deleteWhere
          (fun row => row.packResourceId = pack.id ∧
            row.skillResourceId = member.resourceId)
          edit.db.packMembers } }
  else edit

def editMember (kind : PackMutationKind) (authority : UserAuthority)
    (target : NamespacePublishAuthority) (pack : PackRow) (edit : PackEdit)
    (member : PackMemberTarget) : Except ApiError PackEdit :=
  match kind with
  | .add => addMember authority target pack edit member
  | .remove => .ok (removeMember pack edit member)

/-- A changed pack gets a new version. -/
def storeEdit (user : Uuid) (pack : PackRow) (edit : PackEdit) :
    Except ApiError (PackRow × Db) :=
  if edit.changed then do
    let members <- edit.db.orderResolvedMembers user edit.members
    edit.db.insertPackRevision pack members none
  else .ok (pack, edit.db)

/-- Wake the subscribers of a pack that has changed. -/
def wakePack (changed : Bool) (pack : PackRow) (db : Db) : Db :=
  if changed then db.enqueueResourceWake pack.id pack.generation.value else db

def changeMembers (kind : PackMutationKind) (authority : UserAuthority)
    (target : NamespacePublishAuthority) (request : PackMutationRequest)
    (pack : PackRow) (db : Db) :
    Except ApiError (PackMutationResponse × Db) := do
  ensureGeneration pack.generation request.expectedGeneration
  let edit <- request.members.foldlM
    (editMember kind authority target pack)
    { members := db.loadPackRevisionMembers pack.id pack.currentVersion
      changed := false
      db }
  let (pack, db) <- storeEdit authority.userId pack edit
  let outcome : PackMutationResponse :=
    { pack := db.packSummary pack, changed := edit.changed }
  let db <- db.recordPackOperation
    { userId := authority.userId
      operationId := request.operationId
      requestHash := request.requestHash
      target := pack.id
      outcome := kind.outcome outcome }
  return (outcome, wakePack edit.changed pack db)

/-- Change the members of a pack.  The outer error rolls the transaction back;
the inner one is answered after the catch-up has been committed. -/
def mutatePack (kind : PackMutationKind) (userId : Uuid)
    (request : PackMutationRequest) (db : Db) :
    Except ApiError (Except ApiError PackMutationResponse × Db) := do
  let authority <- db.directory.userAuthority userId
  ensure (!request.members.isEmpty)
    (ApiError.new .invalidRequest
      "pack mutation requires at least one skill")
  ensure (decide (request.members.map PackMemberTarget.resourceId).Nodup)
    (ApiError.new .invalidRequest
      "pack mutation contains the same skill more than once")
  checkPackHash request.requestHash
    (self.hashes.packMutation kind request.toPackMutationRequestHashInput)
  let replay <- db.replayPackOperation (PackOutcome.mutation? kind)
    authority.userId request.operationId request.requestHash
  match replay with
  | some outcome => return (.ok outcome, db)
  | none => do
      let target <- db.authorizeResourcePublish authority request.resourceId
      let pack <- db.loadOwnedPackForUpdate authority.userId
        request.resourceId target.namespaceId
      onCurrentPack authority.userId pack
        (changeMembers kind authority target request) db

/-!
## Publishing a pack
-/

/-- The rows of a pack that becomes public, or that stays what it was. -/
def setPublished (db : Db) (pack : PackRow) (visibilityChanged
    resolutionChanged : Bool) : Except ApiError (PackRow × Db) :=
  if visibilityChanged then do
    let generation <- nextGeneration pack.generation
    return ({ pack with generation, visibility := .pub },
      { db with
        resources := updateWhere (fun row => row.id = pack.id)
          (fun row => { row with
            visibility := .pub
            generation
            latestReleaseVersion := some pack.currentVersion })
          db.resources })
  else if resolutionChanged then
    .ok (pack,
      { db with
        resources := updateWhere (fun row => row.id = pack.id)
          (fun row => { row with
            latestReleaseVersion := some pack.currentVersion })
          db.resources })
  else .ok (pack, db)

def releasePack (authority : UserAuthority)
    (target : NamespacePublishAuthority) (request : PackPublishRequest)
    (pack : PackRow) (db : Db) :
    Except ApiError (PackMutationResponse × Db) := do
  ensureGeneration pack.generation request.expectedGeneration
  let makePublic :=
    !target.isTeam || decide (pack.visibility = .pub) || request.isPublic
  let resolved <- db.resolveAllMembers authority.userId target.namespaceId
    makePublic target.isTeam pack.id
  let resolutionChanged := decide
    (db.loadPackRevisionMembers pack.id pack.currentVersion ≠ resolved)
  let (pack, db) <-
    if resolutionChanged then db.insertPackRevision pack resolved none
    else .ok (pack, db)
  let visibilityChanged := makePublic && decide (pack.visibility ≠ .pub)
  let (pack, db) <- setPublished db pack visibilityChanged resolutionChanged
  let changed := visibilityChanged || resolutionChanged
  let outcome : PackMutationResponse := { pack := db.packSummary pack, changed }
  let db <- db.recordPackOperation
    { userId := authority.userId
      operationId := request.operationId
      requestHash := request.requestHash
      target := pack.id
      outcome := .publish outcome }
  return (outcome, wakePack changed pack db)

def publishPack (userId : Uuid) (request : PackPublishRequest) (db : Db) :
    Except ApiError (Except ApiError PackMutationResponse × Db) := do
  let authority <- db.directory.userAuthority userId
  checkPackHash request.requestHash
    (self.hashes.packPublish request.toPackPublishRequestHashInput)
  let replay <- db.replayPackOperation PackOutcome.publish? authority.userId
    request.operationId request.requestHash
  match replay with
  | some outcome => return (.ok outcome, db)
  | none => do
      let target <- db.authorizeResourcePublish authority request.resourceId
      let pack <- db.loadOwnedPackForUpdate authority.userId
        request.resourceId target.namespaceId
      onCurrentPack authority.userId pack
        (releasePack authority target request) db

end Registry
end Denju
