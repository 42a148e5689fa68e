import Denju.Registry.Workspace
import Denju.Lib.TransactionRules

/-!
# Tables and statements

The rows that transactions read and write, each under its primary key, and the
statements that several endpoints share, one by one.  What a request checks
before its transaction reads no row and does not appear.  Statements on tables
that are not listed here are left out, and so are unique indexes other than the
primary keys: they can only refuse a transaction, and every script may be cut
off anywhere.  Every statement sees the rows that it names.
-/

namespace Denju

open Lib

/-!
## Tables
-/

/-- An invite, which never makes an owner. -/
structure TeamInvite where
  teamNamespaceId : Uuid
  createdByUserId : Uuid
  role : TeamRole
  codeHash : Digest
  expiresAt : Nat
  usedByUserId : Option Uuid
  revoked : Bool
  notOwner : role ≠ .owner
deriving DecidableEq

inductive TransferState where
  | pending
  | accepted
  | cancelled
deriving DecidableEq, Repr

structure TeamOwnerTransfer where
  teamNamespaceId : Uuid
  fromUserId : Uuid
  toUserId : Uuid
  codeHash : Digest
  state : TransferState
  distinct : fromUserId ≠ toUserId
deriving DecidableEq

structure TeamOwnerTransferResponse where
  transferId : Uuid
  team : Text
  fromUserId : Uuid
  toUserId : Uuid
  state : TransferState
deriving DecidableEq

structure AccountDeleteResponse where
  deleted : Bool
  username : Text
deriving DecidableEq

inductive TeamOutcome where
  | mutation (response : TeamMutationResponse)
  | left (response : TeamLeaveResponse)
  | transfer (response : TeamOwnerTransferResponse)
  | accountDeleted (response : AccountDeleteResponse)
  | drafted (resourceId : Uuid)
deriving DecidableEq

inductive TeamOperationKind where
  | create
  | join
  | memberRole
  | memberRemove
  | settings
  | leave
  | ownerTransfer
  | ownerTransferAccept
deriving DecidableEq, Repr

structure TeamOperation where
  requestHash : RequestHash
  kind : TeamOperationKind
  outcome : TeamOutcome
deriving DecidableEq

/-- A user, without a namespace once the account is deleted. -/
structure Account where
  namespaceId : Option Uuid
  deleted : Bool
deriving DecidableEq

inductive TableKey where
  | namespaceRow (id : Uuid)
  | account (id : Uuid)
  | team (id : Uuid)
  | membership (team user : Uuid)
  | invite (id : Uuid)
  | transfer (id : Uuid)
  | operation (user : Uuid) (id : OperationId)
  | resource (id : Uuid)
  | workspace (resource user : Uuid)
  | snapshot (resource : Uuid) (revision : RevisionId)
  | release (resource : Uuid) (version : Generation)
  | proposal (id : Uuid)
  | fork (resource : Uuid)
  | revisionBlob (revision : RevisionId) (blob : BlobId)
  | resourceBlob (resource : Uuid) (blob : BlobId)
  | namespaceBlob (space : Uuid) (blob : BlobId)
  | canonicalBlob (blob : BlobId)
  | blobGc (blob : BlobId)
  | object (blob : BlobId)
deriving DecidableEq

abbrev TableRow : TableKey -> Type
  | .namespaceRow _ => Namespace
  | .account _ => Account
  | .team _ => Team
  | .membership _ _ => TeamRole
  | .invite _ => TeamInvite
  | .transfer _ => TeamOwnerTransfer
  | .operation _ _ => TeamOperation
  | .resource _ => ResourceRow
  | .workspace _ _ => WorkspaceRow
  | .snapshot _ _ => StoredSnapshot
  | .release _ _ => ReleaseRow
  | .proposal _ => ProposalRow
  | .fork _ => ForkRow
  | .revisionBlob _ _ => Unit
  | .resourceBlob _ _ => Nat
  | .namespaceBlob _ _ => Nat
  | .canonicalBlob _ => Nat
  | .blobGc _ => Unit
  | .object _ => Unit

/-- What a transaction has read and relies on later. -/
inductive Note where
  | member (team user : Uuid)
  | ownsNone (user : Uuid) (teams : List Uuid)
  | mayPublish (team user : Uuid)
  | cleared (team user : Uuid) (deleted : List Uuid)
  | membersCleared (team : Uuid) (members : List Uuid)
  | fits (space : Uuid) (blobs : Blobs) (limit : Nat)
  | stored (blob : BlobId)

abbrev TableView := View TableRow

abbrev Transaction := Script TableRow Note ApiError

namespace TableView

def namespaceBySlug (view : TableView) (slug : Text) : Option Namespace :=
  view.keys.findSome? fun
    | .namespaceRow id =>
        (view.rows (.namespaceRow id)).filter fun row => row.slug = slug
    | _ => none

end TableView

/-!
## Statements
-/

namespace Transaction

/-- The check of a foreign key. -/
def references (k : TableKey) (key : String) : Transaction Unit := do
  let row <- Script.shareRow k
  ensure row.isSome (internalApiError key)

/-- `INSERT` without a conflict clause. -/
def insertNew (k : TableKey) (row : TableRow k) (key : String) :
    Transaction Unit := do
  let inserted <- Script.insertRow k row
  ensure inserted (internalApiError key)

/-- The authority to publish in a namespace, which is shared until the
transaction ends.  The membership and the settings of a team are only read. -/
def authorizeNamespacePublish (authority : UserAuthority) (owner : Text) :
    Transaction NamespacePublishAuthority := do
  let notFound := ApiError.new .notFound "namespace not found"
  let view : TableView <- Script.rows
  let found <- okOr (view.namespaceBySlug owner) notFound
  let space : Option Namespace <-
    Script.shareRow (TableKey.namespaceRow found.id)
  let space <- okOr space notFound
  match space.kind with
  | .user => do
      ensure (found.id == authority.namespaceId)
        (ApiError.new .unauthorized "resource namespace is unavailable")
      return {
        namespaceId := found.id
        namespaceSlug := owner
        isTeam := false }
  | .team => do
      let role <- okOr (view.rows (.membership found.id authority.userId))
        (ApiError.new .unauthorized "team is unavailable")
      let team : Team <- okOr (view.rows (.team found.id))
        (ApiError.new .internal "team settings are unavailable")
      ensure (Directory.roleCanPublish role team.membersCanPublish)
        (ApiError.new .unauthorized "team role does not allow publishing")
      return {
        namespaceId := found.id
        namespaceSlug := owner
        isTeam := true }

def authorizeResourcePublish (authority : UserAuthority)
    (resourceId : Uuid) : Transaction NamespacePublishAuthority := do
  let notFound := ApiError.new .notFound "resource not found"
  let view : TableView <- Script.rows
  let row <- okOr
    ((view.rows (.resource resourceId)).filter fun row => !row.deleted)
    notFound
  let owner : Namespace <-
    okOr (view.rows (.namespaceRow row.ownerNamespaceId)) notFound
  authorizeNamespacePublish authority owner.slug

/-- The workspace of a user of a team skill starts at the latest release. -/
def ensurePrivateWorkspaceForUser (resourceId userId : Uuid) :
    Transaction Bool := do
  let view : TableView <- Script.rows
  let start : Option WorkspaceRow := do
    let row <- (view.rows (.resource resourceId)).filter fun row =>
      decide (row.kind = .skill) && !row.deleted
    let version <- row.latestReleaseVersion
    let release <- view.rows (.release resourceId version)
    let snapshot <- view.rows (.snapshot resourceId release.revisionId)
    return {
      resourceId
      workspaceUserId := userId
      metadata := row.metadata
      revisionId := release.revisionId
      generation := row.generation
      snapshot }
  match start with
  | none => return false
  | some row => do
      let inserted <- Script.insertRow (.workspace resourceId userId) row
      if inserted then
        references (.resource resourceId)
          "skill_private_workspaces_resource_id_fkey"
        references (.account userId)
          "skill_private_workspaces_workspace_user_id_fkey"
      return inserted

/-- A publisher of a team gets a workspace, and stays a publisher. -/
def ensureTeamWorkspace (target : NamespacePublishAuthority)
    (resourceId userId : Uuid) : Transaction Unit := do
  if target.isTeam then
    let inserted <- ensurePrivateWorkspaceForUser resourceId userId
    if inserted then
      Script.rely [.mayPublish target.namespaceId userId]

/-- The skill and the workspace of the user, both locked. -/
def lockCurrentWorkspace (namespaceId resourceId userId : Uuid)
    (missing unavailable : String) :
    Transaction (ResourceRow × WorkspaceRow) := do
  let notFound := ApiError.new .notFound missing
  let resource : Option ResourceRow <-
    Script.lockRow (TableKey.resource resourceId)
  let resource <- okOr
    (resource.filter fun row => decide (row.kind = .skill) && !row.deleted)
    notFound
  let workspace : Option WorkspaceRow <-
    Script.lockRow (TableKey.workspace resourceId userId)
  let workspace <- okOr workspace notFound
  ensure (resource.ownerNamespaceId == namespaceId)
    (ApiError.new .unauthorized unavailable)
  return (resource, workspace)

end Transaction
end Denju
