import Denju.Registry.Packs
import Denju.Registry.Transfer

/-!
# The life of a pack

A pack is renamed, hidden, deleted, or transferred to a team.  Each of these
first applies the releases that the pack has still to follow, except for a
transfer.
-/

namespace Denju

open Lib

def PackOutcome.rename? : PackOutcome -> Option PackLifecycleResponse
  | .rename outcome => some outcome
  | _ => none

def PackOutcome.unpublish? : PackOutcome -> Option PackLifecycleResponse
  | .unpublish outcome => some outcome
  | _ => none

def PackOutcome.delete? : PackOutcome -> Option PackLifecycleResponse
  | .delete outcome => some outcome
  | _ => none

namespace Db

/-!
## Redirects of packs
-/

def packRedirectAt (namespaceId : Uuid) (slug : Text) (row : RedirectRow) :
    Bool :=
  row.namespaceId = namespaceId ∧ row.kind = .pack ∧ row.oldSlug = slug

def deletePackRedirect (db : Db) (session : Session) (namespaceId : Uuid)
    (slug : Text) : Db :=
  { db with
    redirects := deleteWhere
      (fun row => packRedirectAt namespaceId slug row &&
        db.canManage session row.targetResourceId)
      db.redirects }

def upsertPackRedirect (db : Db) (session : Session) (namespaceId : Uuid)
    (slug : Text) (target : Uuid) : Except ApiError Db :=
  match db.redirects.find? (packRedirectAt namespaceId slug) with
  | none =>
      .ok { db with
        redirects := db.redirects ++ [⟨namespaceId, .pack, slug, target⟩] }
  | some row => do
      ensure (db.canManage session row.targetResourceId)
        (internalApiError "new row violates row-level security policy")
      return { db with
        redirects := updateWhere (packRedirectAt namespaceId slug)
          (fun row => { row with targetResourceId := target }) db.redirects }

/-- Forget the redirects to a resource. -/
def deleteRedirectsTo (db : Db) (session : Session) (target : Uuid) : Db :=
  { db with
    redirects := deleteWhere
      (fun row => decide (row.targetResourceId = target) &&
        db.canManage session row.targetResourceId)
      db.redirects }

def packTakenByOther (db : Db) (namespaceId packId : Uuid) (slug : Text) :
    Bool :=
  db.resources.any fun row =>
    row.ownerNamespaceId = namespaceId ∧ row.kind = .pack ∧ row.slug = slug ∧
      row.deleted = false ∧ row.id ≠ packId

/-!
## Roots of a deleted pack
-/

/-- The installation is claimed by the user. -/
def ownsInstallation (db : Db) (user installation : Uuid) : Bool :=
  db.directory.installations.any fun row =>
    row.id = installation ∧ row.userId = some user

def isTeamOwner (db : Db) (user team : Uuid) : Bool :=
  db.directory.memberships.any fun row =>
    row.teamNamespaceId = team ∧ row.userId = user ∧ row.role = .owner

/-- Delete the subscriptions and the assignments of a pack that the user may
write. -/
def deletePackRoots (db : Db) (user packId : Uuid) : Db :=
  { db with
    installationSubscriptions := deleteWhere
      (fun row => decide (row.resourceId = packId) &&
        db.ownsInstallation user row.installationId)
      db.installationSubscriptions
    subscriptions := deleteWhere
      (fun row => row.resourceId = packId ∧ row.userId = user)
      db.subscriptions
    teamPackAssignments := deleteWhere
      (fun row => decide (row.packResourceId = packId) &&
        db.isTeamOwner user row.teamNamespaceId)
      db.teamPackAssignments }

end Db

namespace Registry

variable (self : Registry)

def packAlreadyExists (owner name : Text) : ApiError :=
  ApiError.new .generationConflict
    (String.ofList (packLocator owner name) ++ " already exists")

/-- Record what a lifecycle call has done, and wake the subscribers. -/
def finishPackCall (user : Uuid) (operationId : OperationId)
    (hash : RequestHash) (outcome : PackLifecycleResponse)
    (kind : PackLifecycleResponse -> PackOutcome) (pack : PackRow) (db : Db) :
    Except ApiError (PackLifecycleResponse × Db) := do
  let db <- db.recordPackOperation
    { userId := user
      operationId
      requestHash := hash
      target := pack.id
      outcome := kind outcome }
  return (outcome, db.enqueueResourceWake pack.id pack.generation.value)

/-!
## Renaming
-/

def movePack (authority : UserAuthority) (target : NamespacePublishAuthority)
    (request : PackRenameRequest) (pack : PackRow) (db : Db) :
    Except ApiError (PackLifecycleResponse × Db) := do
  ensureGeneration pack.generation request.expectedGeneration
  ensure (pack.name != request.newName)
    (ApiError.new .invalidRequest "the pack already has that name")
  ensure (!db.packTakenByOther target.namespaceId pack.id request.newName)
    (packAlreadyExists pack.owner request.newName)
  let generation <- nextGeneration pack.generation
  let db := db.deletePackRedirect (.actor authority.userId) target.namespaceId
    request.newName
  let db := { db with
    resources := updateWhere (fun row => row.id = pack.id)
      (fun row => { row with slug := request.newName, generation })
      db.resources }
  let db <- db.upsertPackRedirect (.actor authority.userId)
    target.namespaceId pack.name pack.id
  let renamed := { pack with name := request.newName, generation }
  finishPackCall authority.userId request.operationId request.requestHash
    { pack := db.packSummary renamed
      oldLocator := some (packLocator pack.owner pack.name)
      deleted := false }
    .rename renamed db

def renamePack (userId : Uuid) (request : PackRenameRequest) (db : Db) :
    Except ApiError (Except ApiError PackLifecycleResponse × Db) := do
  let authority <- db.directory.userAuthority userId
  checkPackHash request.requestHash
    (self.hashes.packRename request.toPackRenameRequestHashInput)
  let replay <- db.replayPackOperation PackOutcome.rename? authority.userId
    request.operationId request.requestHash
  match replay with
  | some outcome => return (.ok outcome, db)
  | none => do
      let target <- db.authorizeResourcePublish authority request.resourceId
      let pack <- db.loadOwnedPackForUpdate authority.userId
        request.resourceId target.namespaceId
      onCurrentPack authority.userId pack (movePack authority target request) db

/-!
## Hiding
-/

def hidePack (authority : UserAuthority) (request : ResourceLifecycleRequest)
    (pack : PackRow) (db : Db) :
    Except ApiError (PackLifecycleResponse × Db) := do
  ensureGeneration pack.generation request.expectedGeneration
  ensure (decide (pack.visibility = .pub))
    (ApiError.new .invalidRequest "the pack is already unpublished")
  let generation <- nextGeneration pack.generation
  let db := { db with
    resources := updateWhere (fun row => row.id = pack.id)
      (fun row => { row with visibility := .priv, generation }) db.resources }
  let hidden := { pack with visibility := .priv, generation }
  finishPackCall authority.userId request.operationId request.requestHash
    { pack := db.packSummary hidden, oldLocator := none, deleted := false }
    .unpublish hidden db

def unpublishPack (userId : Uuid) (request : ResourceLifecycleRequest)
    (db : Db) :
    Except ApiError (Except ApiError PackLifecycleResponse × Db) := do
  let authority <- db.directory.userAuthority userId
  checkPackHash request.requestHash
    (self.hashes.packUnpublish request.toResourceLifecycleRequestHashInput)
  let replay <- db.replayPackOperation PackOutcome.unpublish?
    authority.userId request.operationId request.requestHash
  match replay with
  | some outcome => return (.ok outcome, db)
  | none => do
      let target <- db.authorizeResourcePublish authority request.resourceId
      let pack <- db.loadOwnedPackForUpdate authority.userId
        request.resourceId target.namespaceId
      onCurrentPack authority.userId pack (hidePack authority request) db

/-!
## Deleting
-/

def tombstonePack (authority : UserAuthority)
    (request : ResourceLifecycleRequest) (pack : PackRow) (db : Db) :
    Except ApiError (PackLifecycleResponse × Db) := do
  ensureGeneration pack.generation request.expectedGeneration
  let generation <- nextGeneration pack.generation
  let db := { db with
    resources := updateWhere (fun row => row.id = pack.id)
      (fun row => { row with
        visibility := .priv
        generation
        deleted := true
        tombstoneReleaseVersion := row.latestReleaseVersion
        deletedOwnerSlug := some pack.owner })
      db.resources }
  let db := db.deleteRedirectsTo (.actor authority.userId) pack.id
  let db := db.deletePackRoots authority.userId pack.id
  let deleted := { pack with visibility := .priv, generation }
  finishPackCall authority.userId request.operationId request.requestHash
    { pack := db.packSummary deleted, oldLocator := none, deleted := true }
    .delete deleted db

def deletePack (userId : Uuid) (request : ResourceLifecycleRequest)
    (db : Db) :
    Except ApiError (Except ApiError PackLifecycleResponse × Db) := do
  let authority <- db.directory.userAuthority userId
  checkPackHash request.requestHash
    (self.hashes.packDelete request.toResourceLifecycleRequestHashInput)
  let replay <- db.replayPackOperation PackOutcome.delete? authority.userId
    request.operationId request.requestHash
  match replay with
  | some outcome => return (.ok outcome, db)
  | none => do
      let target <- db.authorizeResourcePublish authority request.resourceId
      ensure (!target.isTeam)
        (ApiError.new .invalidRequest
          "team pack deletion requires the owner-only team lifecycle rules")
      let pack <- db.loadOwnedPackForUpdate authority.userId
        request.resourceId target.namespaceId
      onCurrentPack authority.userId pack (tombstonePack authority request) db

/-!
## Transferring
-/

/-- The live pack that its owner moves. -/
def lockTransferredPack (db : Db) (user resourceId : Uuid) :
    Except ApiError (ResourceRow × Text) := do
  let notFound := ApiError.new .notFound "resource not found"
  let row <- okOr
    ((db.findResource resourceId).filter fun row =>
      decide (row.kind = .pack) && !row.deleted &&
        db.canReadResource user resourceId &&
          db.canManageResource user resourceId)
    notFound
  let owner <- okOr (db.directory.namespaceById row.ownerNamespaceId) notFound
  return (row, owner.slug)

/-- Move a pack and its name.  Its members must be open to the team. -/
def movePackToTeam (authority : UserAuthority)
    (request : ResourceTransferRequest) (db : Db) :
    Except ApiError (ResourceTransferResponse × Db) := do
  let destination <- db.directory.authorizeNamespacePublish authority
    request.destinationTeam
  ensure destination.isTeam
    (ApiError.new .invalidRequest
      "resources may be transferred only into a team namespace")
  let (resource, owner) <- lockTransferredPack db authority.userId
    request.resourceId
  ensure (resource.ownerNamespaceId == authority.namespaceId)
    (ApiError.new .unauthorized
      "only personally owned resources may be transferred")
  let expectedGeneration <- i64TryFrom request.expectedGeneration
    generationOutOfRange
  ensure (resource.generation.value == expectedGeneration)
    (resourceAdvanced resource.generation)
  ensure (!packTaken db destination.namespaceId resource.slug)
    (ApiError.new .generationConflict
      ("destination already contains " ++ String.ofList resource.slug))
  let _ <- db.resolveAllMembers authority.userId destination.namespaceId
    (decide (resource.visibility = .pub)) true request.resourceId
  db.enforceTransferDestinationQuota self.limits request.resourceId
    destination.namespaceId
  let db <- db.moveNamespaceBlobReachability request.resourceId
    resource.ownerNamespaceId destination.namespaceId
  let generation <- okOr resource.generation.checkedSucc
    (ApiError.new .internal "generation overflow")
  let db <- db.upsertPackRedirect (.actor authority.userId)
    resource.ownerNamespaceId resource.slug request.resourceId
  let db := { db with
    resources := updateWhere (fun row => row.id = request.resourceId)
      (fun row => { row with
        ownerNamespaceId := destination.namespaceId, generation })
      db.resources }
  let outcome : ResourceTransferResponse :=
    { resourceId := request.resourceId
      oldLocator := packLocator owner resource.slug
      newLocator := packLocator destination.namespaceSlug resource.slug
      generation := generation.value }
  let rows <- Db.recordOperation db.transferOperations
    { userId := authority.userId
      operationId := request.operationId
      requestHash := request.requestHash
      target := request.resourceId
      outcome }
    "resource_transfer_operations_pkey"
  return (outcome,
    ({ db with transferOperations := rows } : Db).enqueueResourceWake
      request.resourceId generation.value)

/-- The transfer of a pack.  A skill is transferred by its own model. -/
def transferPack (userId : Uuid) (request : ResourceTransferRequest)
    (db : Db) : Except ApiError (ResourceTransferResponse × Db) := do
  let authority <- db.directory.userAuthority userId
  checkRequestHash request.requestHash
    (self.hashes.resourceTransfer request.toResourceTransferRequestHashInput)
    "request_hash does not match the canonical resource transfer payload"
  let replay <- Db.replayOperation db.transferOperations authority.userId
    request.operationId request.requestHash request.resourceId
    "operation_id was already used with different transfer content"
  match replay with
  | some outcome => return (outcome, db)
  | none => self.movePackToTeam authority request db

end Registry
end Denju
