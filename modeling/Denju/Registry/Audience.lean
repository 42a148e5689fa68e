import Denju.Registry.Visibility
import Denju.Registry.PackLifecycle

/-!
# The audience of a skill

The owner of a skill deletes it, deprecates it, or shares it with another user;
an operator quarantines a resource or one of its releases.
-/

namespace Denju

open Lib

def LifecycleOutcome.delete? : LifecycleOutcome -> Option DeleteSkillResponse
  | .delete outcome => some outcome
  | _ => none

def LifecycleOutcome.deprecate? :
    LifecycleOutcome -> Option DeprecateSkillResponse
  | .deprecate outcome => some outcome
  | _ => none

def AdminOutcome.mutation? (kind : AdminQuarantineMutationKind) :
    AdminOutcome -> Option AdminQuarantineResponse
  | .quarantine outcome => if kind = .quarantine then some outcome else none
  | .unquarantine outcome =>
      if kind = .unquarantine then some outcome else none

def AdminQuarantineMutationKind.outcome :
    AdminQuarantineMutationKind -> AdminQuarantineResponse -> AdminOutcome
  | .quarantine => .quarantine
  | .unquarantine => .unquarantine

/-- The characters that the trimming of a text removes. -/
def isWhitespace (c : Char) : Bool :=
  (9 ≤ c.toNat && c.toNat ≤ 13) || c.toNat == 0x20 || c.toNat == 0x85 ||
    c.toNat == 0xA0 || c.toNat == 0x1680 ||
    (0x2000 ≤ c.toNat && c.toNat ≤ 0x200A) || c.toNat == 0x2028 ||
    c.toNat == 0x2029 || c.toNat == 0x202F || c.toNat == 0x205F ||
    c.toNat == 0x3000

def trim (text : Text) : Text :=
  trimEndMatches isWhitespace (text.dropWhile isWhitespace)

namespace Registry

variable (self : Registry)

/-!
## Deleting a skill
-/

/-- Turn a personal skill into a tombstone of its last release. -/
def tombstoneSkill (request : ResourceLifecycleRequest)
    (authority : UserAuthority) (db : Db) :
    Except ApiError (DeleteSkillResponse × Db) := do
  let target <- db.authorizeResourcePublish authority request.resourceId
  ensure (!target.isTeam)
    (ApiError.new .invalidRequest
      "team skill deletion requires the owner-only team lifecycle rules")
  let (resource, owner) <- db.lockActiveOwnedSkill authority.userId
    request.resourceId
  ensure (resource.ownerNamespaceId == target.namespaceId)
    ownedSkillUnavailable
  let expectedGeneration <- i64TryFrom request.expectedGeneration
    generationOutOfRange
  ensure (resource.generation.value == expectedGeneration)
    (resourceAdvanced resource.generation)
  let generation <- nextGeneration resource.generation
  let outcome : DeleteSkillResponse :=
    { resourceId := request.resourceId
      locator := locator owner resource.slug
      generation := generation.value
      finalReleaseVersion :=
        resource.latestReleaseVersion.map Generation.value }
  let db := { db with
    resources := updateWhere (fun row => row.id = request.resourceId)
      (fun row => { row with
        visibility := .priv
        generation
        deleted := true
        tombstoneReleaseVersion := row.latestReleaseVersion
        deletedOwnerSlug := some owner })
      db.resources }
  let db := db.deleteRedirectsTo (.actor authority.userId) request.resourceId
  let db <- db.recordLifecycleOperation
    { userId := authority.userId
      operationId := request.operationId
      requestHash := request.requestHash
      target := request.resourceId
      outcome := .delete outcome }
  return (outcome,
    db.enqueueResourceWake request.resourceId generation.value)

def deleteSkill (userId : Uuid) (request : ResourceLifecycleRequest)
    (db : Db) : Except ApiError (DeleteSkillResponse × Db) := do
  let authority <- db.directory.userAuthority userId
  checkLifecycleHash request.requestHash
    (self.hashes.deleteSkill request.toResourceLifecycleRequestHashInput)
  let replay <- db.replayLifecycleOperation LifecycleOutcome.delete?
    authority.userId request.operationId request.requestHash
    request.resourceId
  match replay with
  | some outcome => return (outcome, db)
  | none => tombstoneSkill request authority db

/-!
## Deprecating a skill
-/

/-- The locator of a public skill that replaces another. -/
def replacementLocator (db : Db) (user : Uuid) (replacement : Option Uuid) :
    Except ApiError (Option Text) :=
  match replacement with
  | none => .ok none
  | some id => do
      let missing :=
        ApiError.new .notFound "replacement public skill not found"
      let row <- okOr
        ((db.findResource id).filter fun row =>
          decide (row.kind = .skill) && row.isPublic &&
            db.canReadResource user id)
        missing
      let owner <- okOr (db.directory.namespaceById row.ownerNamespaceId)
        missing
      return some (locator owner.slug row.slug)

def setDeprecation (request : DeprecateSkillRequest)
    (authority : UserAuthority) (db : Db) :
    Except ApiError (DeprecateSkillResponse × Db) := do
  let target <- db.authorizeResourcePublish authority request.resourceId
  let (resource, owner) <- db.lockActiveOwnedSkill authority.userId
    request.resourceId
  ensure (resource.ownerNamespaceId == target.namespaceId)
    ownedSkillUnavailable
  let expectedGeneration <- i64TryFrom request.expectedGeneration
    generationOutOfRange
  ensure (resource.generation.value == expectedGeneration)
    (resourceAdvanced resource.generation)
  ensure (decide (resource.visibility = .pub) &&
      resource.latestReleaseVersion.isSome)
    (ApiError.new .invalidRequest "only a public skill can be deprecated")
  let replacement <- replacementLocator db authority.userId
    request.replacementResourceId
  let generation <- nextGeneration resource.generation
  let outcome : DeprecateSkillResponse :=
    { resourceId := request.resourceId
      locator := locator owner resource.slug
      generation := generation.value
      deprecated := request.deprecated
      replacement }
  let db := { db with
    resources := updateWhere (fun row => row.id = request.resourceId)
      (fun row => { row with
        generation
        deprecated := request.deprecated
        deprecationReplacement := request.replacementResourceId })
      db.resources }
  let db <- db.recordLifecycleOperation
    { userId := authority.userId
      operationId := request.operationId
      requestHash := request.requestHash
      target := request.resourceId
      outcome := .deprecate outcome }
  return (outcome,
    db.enqueueResourceWake request.resourceId generation.value)

def deprecateSkill (userId : Uuid) (request : DeprecateSkillRequest)
    (db : Db) : Except ApiError (DeprecateSkillResponse × Db) := do
  let authority <- db.directory.userAuthority userId
  ensure (request.deprecated || request.replacementResourceId.isNone)
    (ApiError.new .invalidRequest
      "an active skill cannot keep a deprecation replacement")
  ensure (decide (request.replacementResourceId ≠ some request.resourceId))
    (ApiError.new .invalidRequest
      "a skill cannot deprecate itself in favor of itself")
  checkLifecycleHash request.requestHash
    (self.hashes.deprecateSkill request.toDeprecateSkillRequestHashInput)
  let replay <- db.replayLifecycleOperation LifecycleOutcome.deprecate?
    authority.userId request.operationId request.requestHash
    request.resourceId
  match replay with
  | some outcome => return (outcome, db)
  | none => setDeprecation request authority db

/-!
## Sharing a skill
-/

/-- Who may change the shares of a skill. -/
def authorizeShare (db : Db) (authority : UserAuthority)
    (kind : ShareMutationKind) (resource : ResourceRow) (owner : Namespace) :
    Except ApiError Unit :=
  match owner.kind with
  | .team => do
      ensure (decide (kind ≠ .share))
        (ApiError.new .invalidRequest
          "team skills use team membership; new per-skill private shares are unavailable")
      ensure ((db.directory.membership resource.ownerNamespaceId
          authority.userId).any fun row => row.role ≠ .member)
        (ApiError.new .unauthorized
          "only team owners and maintainers may revoke inherited private shares")
  | .user =>
      ensure (resource.ownerNamespaceId == authority.namespaceId)
        (ApiError.new .unauthorized
          "only the skill owner can change private shares")

/-- The user behind a name. -/
def userBySlug (db : Db) (slug : Text) : Option (User × Text) := do
  let space <- db.directory.namespaceBySlug slug
  let user <- db.directory.users.find? fun row => row.namespaceId = space.id
  return (user, space.slug)

def changeShare (db : Db) (kind : ShareMutationKind)
    (resourceId recipient : Uuid) : Db :=
  match kind with
  | .share =>
      if db.sharedWith resourceId recipient then db
      else { db with shares := db.shares ++ [⟨resourceId, recipient⟩] }
  | .unshare =>
      { db with
        shares := deleteWhere
          (fun row => row.resourceId = resourceId ∧ row.userId = recipient)
          db.shares }

def shareOwnedSkill (kind : ShareMutationKind) (authority : UserAuthority)
    (request : ShareSkillRequest) (db : Db) :
    Except ApiError (ShareSkillResponse × Db) := do
  let notFound := ApiError.new .notFound "owned skill not found"
  let resource <- okOr
    ((db.findResource request.resourceId).filter fun row =>
      decide (row.kind = .skill) && !row.deleted &&
        db.canReadResource authority.userId request.resourceId &&
          db.canManageResource authority.userId request.resourceId)
    notFound
  let owner <- okOr (db.directory.namespaceById resource.ownerNamespaceId)
    notFound
  authorizeShare db authority kind resource owner
  let (recipient, recipientSlug) <- okOr (userBySlug db request.recipient)
    (ApiError.new .notFound "recipient user not found")
  ensure (recipient.id != authority.userId)
    (ApiError.new .invalidRequest
      "a user cannot privately share a skill with themselves")
  let db := changeShare db kind request.resourceId recipient.id
  let shared := decide (kind = .share)
  let skill := locator owner.slug resource.slug
  let outcome : ShareSkillResponse :=
    { resourceId := request.resourceId
      locator := skill
      recipient := '@' :: recipientSlug
      shared
      subscribeCommand :=
        if shared then some ("denju subscribe ".toList ++ skill) else none }
  let rows <- Db.recordOperation db.shareOperations
    { userId := authority.userId
      operationId := request.operationId
      requestHash := request.requestHash
      target := request.resourceId
      outcome }
    "private_share_operations_pkey"
  return (outcome,
    ({ db with shareOperations := rows } : Db).enqueueResourceWake
      request.resourceId resource.generation.value)

def mutatePrivateShare (kind : ShareMutationKind) (userId : Uuid)
    (request : ShareSkillRequest) (db : Db) :
    Except ApiError (ShareSkillResponse × Db) := do
  let authority <- db.directory.userAuthority userId
  checkRequestHash request.requestHash
    (self.hashes.shareSkill kind request.toShareSkillRequestHashInput)
    "request_hash does not match the canonical sharing intent"
  let replay <- Db.replayOperation db.shareOperations authority.userId
    request.operationId request.requestHash request.resourceId
    "operation_id was already used with different sharing intent"
  match replay with
  | some outcome => return (outcome, db)
  | none => shareOwnedSkill kind authority request db

/-!
## Quarantine
-/

/-- The stored answer of an operator's operation of the selected kind. -/
def replayAdminOperation (db : Db) (kind : AdminQuarantineMutationKind)
    (operator : Uuid) (operationId : OperationId) (hash : RequestHash) :
    Except ApiError (Option AdminQuarantineResponse) :=
  match Db.findOperation db.adminOperations operator operationId with
  | none => .ok none
  | some row => do
      let differs := ApiError.new .operationConflict
        "operation_id was already used with different admin mutation content"
      ensure (row.requestHash == hash) differs
      let outcome <- okOr (row.outcome.mutation? kind) differs
      return some outcome

/-- The release that a quarantine is about. -/
def quarantineTarget (db : Db) (resource : ResourceRow)
    (version : Option UInt64) : Except ApiError (Option Generation) :=
  match version with
  | none => .ok none
  | some version => do
      ensure (decide (resource.kind = .skill))
        (ApiError.new .invalidRequest
          "exact-release quarantine applies only to skills")
      ensure (version.toNat < 2 ^ 63)
        (ApiError.new .invalidRequest "release version is invalid")
      let release <- okOr
        (db.releases.find? fun row =>
          row.resourceId = resource.id ∧ row.version.value = version.toNat)
        (ApiError.new .notFound "release not found")
      return some release.version

/-- The active quarantine of exactly this scope. -/
def activeQuarantine (db : Db) (resourceId : Uuid)
    (version : Option Generation) : Option QuarantineRow :=
  db.quarantines.find? fun row =>
    row.resourceId = resourceId ∧ row.lifted = false ∧
      row.releaseVersion = version

/-- Put the quarantine in force or lift it.  The result says which row changed
and whether anything did. -/
def changeQuarantine (db : Db) (kind : AdminQuarantineMutationKind)
    (newId resourceId : Uuid) (version : Option Generation) (reason : Text) :
    Option Uuid × Bool × Db :=
  match kind, activeQuarantine db resourceId version with
  | .quarantine, some active => (some active.id, false, db)
  | .quarantine, none =>
      (some newId, true,
        { db with
          quarantines := db.quarantines ++
            [{ id := newId
               reason
               resourceId
               releaseVersion := version
               lifted := false }] })
  | .unquarantine, some active =>
      (some active.id, true,
        { db with
          quarantines := updateWhere
            (fun row => row.id = active.id ∧ row.lifted = false)
            (fun row => { row with lifted := true }) db.quarantines })
  | .unquarantine, none => (none, false, db)

/-- A change of the quarantine is a new generation of the resource. -/
def advanceQuarantined (db : Db) (changed : Bool) (resource : ResourceRow) :
    Except ApiError (Generation × Db) :=
  if changed then do
    let generation <- nextGeneration resource.generation
    let db := { db with
      resources := updateWhere (fun row => row.id = resource.id)
        (fun row => { row with generation }) db.resources }
    return (generation, db.enqueueResourceWake resource.id generation.value)
  else .ok (resource.generation, db)

def resourceLocator (kind : ResourceKind) (owner name : Text) : Text :=
  match kind with
  | .skill => locator owner name
  | .pack => packLocator owner name

def quarantineResource (kind : AdminQuarantineMutationKind)
    (newQuarantineId operator : Uuid) (request : AdminQuarantineRequest)
    (db : Db) : Except ApiError (AdminQuarantineResponse × Db) := do
  let resource <- okOr (db.findResource request.resourceId)
    (ApiError.new .notFound "resource not found")
  ensure (resource.generation.value == request.expectedGeneration.toNat)
    (ApiError.new .generationConflict
      "resource generation changed; resolve the resource and retry")
  let version <- quarantineTarget db resource request.releaseVersion
  let (quarantineId, changed, db) := changeQuarantine db kind newQuarantineId
    resource.id version (trim request.reason)
  let (generation, db) <- advanceQuarantined db changed resource
  let owner := ((db.directory.namespaceById resource.ownerNamespaceId).map
    Namespace.slug).getD "deleted".toList
  let outcome : AdminQuarantineResponse :=
    { quarantineId
      resourceId := resource.id
      locator := resourceLocator resource.kind owner resource.slug
      releaseVersion := request.releaseVersion.map UInt64.toNat
      quarantined := decide (kind = .quarantine)
      generation := generation.value }
  let rows <- Db.recordOperation db.adminOperations
    { userId := operator
      operationId := request.operationId
      requestHash := request.requestHash
      target := resource.id
      outcome := kind.outcome outcome }
    "admin_operations_pkey"
  return (outcome, { db with adminOperations := rows })

def mutateQuarantine (kind : AdminQuarantineMutationKind)
    (newQuarantineId operator : Uuid) (request : AdminQuarantineRequest)
    (db : Db) : Except ApiError (AdminQuarantineResponse × Db) := do
  checkRequestHash request.requestHash
    (self.hashes.adminQuarantine kind
      request.toAdminQuarantineRequestHashInput)
    "request_hash does not match the canonical admin quarantine payload"
  let reason := trim request.reason
  ensure (decide (kind ≠ .quarantine) ||
      (!reason.isEmpty && reason.length ≤ 500))
    (ApiError.new .invalidRequest
      "quarantine reason must contain 1-500 characters")
  ensure (decide (operator ∈ db.directory.operators))
    (ApiError.new .unauthorized "operator credential rejected")
  let replay <- replayAdminOperation db kind operator request.operationId
    request.requestHash
  match replay with
  | some outcome => return (outcome, db)
  | none => quarantineResource kind newQuarantineId operator request db

/-!
## What these calls write
-/

section Written

variable {self} {db db' : Db} {userId : Uuid}

/-- A deleted skill, whose redirects may go. -/
structure SkillDeleted (request : ResourceLifecycleRequest)
    (resource : ResourceRow) (db db' : Db) : Prop where
  found : db.findResource request.resourceId = some resource
  kind : resource.kind = .skill
  live : resource.deleted = false
  tables : exists redirects lifecycleOperations generation owner,
    (forall row, row ∈ redirects -> row ∈ db.redirects) ∧
      db' = ({ db with
        resources := updateWhere (fun row => row.id = request.resourceId)
          (fun row => { row with
            visibility := .priv
            generation
            deleted := true
            tombstoneReleaseVersion := row.latestReleaseVersion
            deletedOwnerSlug := some owner })
          db.resources
        redirects
        lifecycleOperations } : Db).enqueueResourceWake request.resourceId
          generation.value

theorem deleteSkill_eq_ok {request : ResourceLifecycleRequest}
    {outcome : DeleteSkillResponse}
    (h : self.deleteSkill userId request db = .ok (outcome, db')) :
    db' = db ∨ exists resource, SkillDeleted request resource db db' := by
  rcases bind_eq_ok.mp h with ⟨authority, _, h⟩
  rcases bind_eq_ok.mp h with ⟨_, _, h⟩
  rcases bind_eq_ok.mp h with ⟨replay, _, h⟩
  split at h
  · cases h
    exact .inl rfl
  · rcases bind_eq_ok.mp h with ⟨target, _, h⟩
    rcases bind_eq_ok.mp h with ⟨_, _, h⟩
    rcases bind_eq_ok.mp h with ⟨⟨resource, owner⟩, hlocked, h⟩
    rcases bind_eq_ok.mp h with ⟨_, _, h⟩
    rcases bind_eq_ok.mp h with ⟨_, _, h⟩
    rcases bind_eq_ok.mp h with ⟨_, _, h⟩
    rcases bind_eq_ok.mp h with ⟨generation, _, h⟩
    rcases bind_eq_ok.mp h with ⟨recorded, hrecorded, h⟩
    rcases bind_eq_ok.mp hrecorded with ⟨operations, _, hrecorded⟩
    rcases lockActiveOwnedSkill_eq_ok hlocked with ⟨hfound, hkind, hlive, _⟩
    cases hrecorded
    cases h
    exact .inr ⟨resource, hfound, hkind, hlive, _, operations, generation,
      owner, fun row hrow => (mem_deleteWhere.mp hrow).1, rfl⟩

theorem deprecateSkill_eq_ok {request : DeprecateSkillRequest}
    {outcome : DeprecateSkillResponse}
    (h : self.deprecateSkill userId request db = .ok (outcome, db')) :
    db' = db ∨ exists generation lifecycleOperations,
      db' = ({ db with
        resources := updateWhere (fun row => row.id = request.resourceId)
          (fun row => { row with
            generation
            deprecated := request.deprecated
            deprecationReplacement := request.replacementResourceId })
          db.resources
        lifecycleOperations } : Db).enqueueResourceWake request.resourceId
          generation.value := by
  rcases bind_eq_ok.mp h with ⟨authority, _, h⟩
  rcases bind_eq_ok.mp h with ⟨_, _, h⟩
  rcases bind_eq_ok.mp h with ⟨_, _, h⟩
  rcases bind_eq_ok.mp h with ⟨_, _, h⟩
  rcases bind_eq_ok.mp h with ⟨replay, _, h⟩
  split at h
  · cases h
    exact .inl rfl
  · rcases bind_eq_ok.mp h with ⟨target, _, h⟩
    rcases bind_eq_ok.mp h with ⟨⟨resource, owner⟩, _, h⟩
    rcases bind_eq_ok.mp h with ⟨_, _, h⟩
    rcases bind_eq_ok.mp h with ⟨_, _, h⟩
    rcases bind_eq_ok.mp h with ⟨_, _, h⟩
    rcases bind_eq_ok.mp h with ⟨_, _, h⟩
    rcases bind_eq_ok.mp h with ⟨replacement, _, h⟩
    rcases bind_eq_ok.mp h with ⟨generation, _, h⟩
    rcases bind_eq_ok.mp h with ⟨recorded, hrecorded, h⟩
    rcases bind_eq_ok.mp hrecorded with ⟨operations, _, hrecorded⟩
    cases hrecorded
    cases h
    exact .inr ⟨generation, operations, rfl⟩

theorem mutatePrivateShare_eq_ok {kind : ShareMutationKind}
    {request : ShareSkillRequest} {outcome : ShareSkillResponse}
    (h : self.mutatePrivateShare kind userId request db =
      .ok (outcome, db')) :
    exists shares shareOperations authorityEvents authorityEventSequence,
      db' = { db with
        shares, shareOperations, authorityEvents, authorityEventSequence } := by
  rcases bind_eq_ok.mp h with ⟨authority, _, h⟩
  rcases bind_eq_ok.mp h with ⟨_, _, h⟩
  rcases bind_eq_ok.mp h with ⟨replay, _, h⟩
  split at h
  · cases h
    exact ⟨_, _, _, _, rfl⟩
  · rcases bind_eq_ok.mp h with ⟨resource, _, h⟩
    rcases bind_eq_ok.mp h with ⟨owner, _, h⟩
    rcases bind_eq_ok.mp h with ⟨_, _, h⟩
    rcases bind_eq_ok.mp h with ⟨⟨recipient, slug⟩, _, h⟩
    rcases bind_eq_ok.mp h with ⟨_, _, h⟩
    rcases bind_eq_ok.mp h with ⟨operations, _, h⟩
    cases h
    unfold changeShare
    repeat' split
    all_goals exact ⟨_, _, _, _, rfl⟩

theorem changeQuarantine_frame (db : Db) (kind : AdminQuarantineMutationKind)
    (newId resourceId : Uuid) (version : Option Generation) (reason : Text) :
    exists quarantineId changed quarantines,
      changeQuarantine db kind newId resourceId version reason =
        (quarantineId, changed, { db with quarantines }) := by
  unfold changeQuarantine
  split
  all_goals exact ⟨_, _, _, rfl⟩

/-- A change of a quarantine is a new generation of the resource. -/
theorem mutateQuarantine_eq_ok {kind : AdminQuarantineMutationKind}
    {newQuarantineId operator : Uuid} {request : AdminQuarantineRequest}
    {outcome : AdminQuarantineResponse}
    (h : self.mutateQuarantine kind newQuarantineId operator request db =
      .ok (outcome, db')) :
    exists quarantines adminOperations authorityEvents authorityEventSequence,
      db' = { db with
        quarantines, adminOperations, authorityEvents,
        authorityEventSequence } ∨
      exists id generation, db' = { db with
        resources := updateWhere (fun row => row.id = id)
          (fun row => { row with generation }) db.resources
        quarantines, adminOperations, authorityEvents,
        authorityEventSequence } := by
  rcases bind_eq_ok.mp h with ⟨_, _, h⟩
  rcases bind_eq_ok.mp h with ⟨_, _, h⟩
  rcases bind_eq_ok.mp h with ⟨_, _, h⟩
  rcases bind_eq_ok.mp h with ⟨replay, _, h⟩
  split at h
  · cases h
    exact ⟨_, _, _, _, .inl rfl⟩
  · rcases bind_eq_ok.mp h with ⟨resource, _, h⟩
    rcases bind_eq_ok.mp h with ⟨_, _, h⟩
    rcases bind_eq_ok.mp h with ⟨version, _, h⟩
    rcases changeQuarantine_frame db kind newQuarantineId resource.id version
      (trim request.reason) with ⟨quarantineId, changed, quarantines, hmarked⟩
    rw [hmarked] at h
    rcases bind_eq_ok.mp h with ⟨⟨generation, advanced⟩, hadvanced, h⟩
    rcases bind_eq_ok.mp h with ⟨operations, _, h⟩
    cases h
    unfold advanceQuarantined at hadvanced
    split at hadvanced
    · rcases bind_eq_ok.mp hadvanced with ⟨next, _, hadvanced⟩
      cases hadvanced
      exact ⟨_, _, _, _, .inr ⟨_, _, rfl⟩⟩
    · cases hadvanced
      exact ⟨_, _, _, _, .inl rfl⟩

end Written

end Registry
end Denju
