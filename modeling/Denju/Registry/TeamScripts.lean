import Denju.Registry.Tables

/-!
# The transactions of teams

The statements of every transaction that changes the members of a team, one by
one.
-/

namespace Denju

open Lib

/-!
## Lookups
-/

namespace TableView

/-- The live user with the slug of a personal namespace. -/
def userBySlug (view : TableView) (slug : Text) : Option Uuid :=
  view.keys.findSome? fun
    | .account id => do
        let row <- (view.rows (.account id)).filter fun row => !row.deleted
        let space <- row.namespaceId
        let found <- (view.rows (.namespaceRow space)).filter fun found =>
          decide (found.slug = slug ∧ found.kind = .user)
        let _ := found
        return id
    | _ => none

/-- The teams in which the user has a role. -/
def teamsWhere (view : TableView) (user : Uuid) (role : TeamRole -> Bool) :
    List Uuid :=
  view.keys.filterMap fun
    | .membership team member =>
        if member = user then
          ((view.rows (.membership team member)).filter role).map fun _ => team
        else none
    | _ => none

/-- The users with a role in the team. -/
def membersWhere (view : TableView) (team : Uuid) (role : TeamRole -> Bool) :
    List Uuid :=
  view.keys.filterMap fun
    | .membership found user =>
        if found = team then
          ((view.rows (.membership found user)).filter role).map fun _ => user
        else none
    | _ => none

def inviteByCode (view : TableView) (codeHash : Digest) : Option Uuid :=
  view.keys.findSome? fun
    | .invite id =>
        ((view.rows (.invite id)).filter fun row =>
          row.codeHash = codeHash).map fun _ => id
    | _ => none

def transferByCode (view : TableView) (codeHash : Digest) : Option Uuid :=
  view.keys.findSome? fun
    | .transfer id =>
        ((view.rows (.transfer id)).filter fun row =>
          row.codeHash = codeHash).map fun _ => id
    | _ => none

def pendingTransfers (view : TableView) (team : Uuid) : List Uuid :=
  view.keys.filterMap fun
    | .transfer id =>
        ((view.rows (.transfer id)).filter fun row =>
          decide (row.teamNamespaceId = team ∧ row.state = .pending)).map
            fun _ => id
    | _ => none

/-- The workspaces of the user on the skills of the team. -/
def teamWorkspaces (view : TableView) (team user : Uuid) : List Uuid :=
  view.keys.filterMap fun
    | .workspace resource owner =>
        if owner = user ∧ (view.rows (.workspace resource owner)).isSome then
          ((view.rows (.resource resource)).filter fun row =>
            decide (row.ownerNamespaceId = team ∧ row.kind = .skill)).map
              fun _ => resource
        else none
    | _ => none

theorem mem_membersWhere {view : TableView} {team user : Uuid}
    {role : TeamRole -> Bool} :
    user ∈ view.membersWhere team role <->
      exists found, view.rows (.membership team user) = some found ∧
        role found = true := by
  unfold membersWhere
  rw [List.mem_filterMap]
  constructor
  · rintro ⟨k, _, hk⟩
    cases k with
    | membership found member =>
        dsimp only at hk
        split at hk
        · rename_i hteam
          subst hteam
          rcases Option.map_eq_some_iff.mp hk with ⟨row, hrow, rfl⟩
          exact ⟨row, Option.filter_eq_some_iff.mp hrow⟩
        · cases hk
    | _ => cases hk
  · rintro ⟨found, hfound, hrole⟩
    refine ⟨.membership team user, ?_, ?_⟩
    · by_contra hkey
      rw [view.covers _ hkey] at hfound
      cases hfound
    · simp [hfound, hrole]

end TableView

/-!
## Shared statements
-/

namespace Transaction

def replayTeamOperation (userId : Uuid) (operationId : OperationId)
    (requestHash : RequestHash) (kind : TeamOperationKind) :
    Transaction (Option TeamOutcome) := do
  let view : TableView <- Script.rows
  match view.rows (.operation userId operationId) with
  | none => return none
  | some row => do
      ensure (decide (row.requestHash = requestHash ∧ row.kind = kind))
        (ApiError.new .operationConflict
          "operation_id was already used with different team mutation content")
      return some row.outcome

def recordTeamOperation (userId : Uuid) (operationId : OperationId)
    (requestHash : RequestHash) (kind : TeamOperationKind)
    (outcome : TeamOutcome) : Transaction Unit :=
  insertNew (.operation userId operationId) ⟨requestHash, kind, outcome⟩
    "team_operations_pkey"

/-- The team and the membership of the user, both locked. -/
def teamMembershipForUpdate (userId : Uuid) (slug : Text) :
    Transaction (Uuid × TeamRole × Bool) := do
  let notFound := ApiError.new .notFound "team not found"
  let view : TableView <- Script.rows
  let row <- okOr (view.namespaceBySlug slug) notFound
  let team : Option Team <- Script.lockRow (TableKey.team row.id)
  let team <- okOr team notFound
  let role : Option TeamRole <-
    Script.lockRow (TableKey.membership row.id userId)
  let role <- okOr role notFound
  return (row.id, role, team.membersCanPublish)

def userBySlug (slug : Text) : Transaction Uuid := do
  let view : TableView <- Script.rows
  okOr (view.userBySlug slug) (ApiError.new .notFound "user not found")

/-- The deletion of the workspaces of a user on the skills of a team, allowed to
the user and to the owner of the team. -/
def removeTeamWorkspacesForUser (actor team user : Uuid) :
    Transaction Unit := do
  let view : TableView <- Script.rows
  let allowed :=
    match view.rows (.membership team actor) with
    | none => false
    | some role => decide (actor = user) || decide (role = .owner)
  ensure allowed (internalApiError "team workspace cleanup is unauthorized")
  let view : TableView <- Script.rows
  let deleted <- Script.filterEach
    (fun resource => Script.deleteRow (.workspace resource user))
    (view.teamWorkspaces team user)
  Script.rely [.cleared team user deleted]

/-- The locked role of a member whom the owner wants to change. -/
def lockedMember (team user : Uuid) (missing : String) :
    Transaction TeamRole := do
  let role : Option TeamRole <- Script.lockRow (TableKey.membership team user)
  okOr role (ApiError.new .notFound missing)

def teamMutationSummary (team : Uuid) (slug : Text) (role : TeamRole)
    (membersCanPublish changed : Bool) : TeamOutcome :=
  .mutation
    { team :=
        { namespaceId := team
          team := '@' :: slug
          role
          membersCanPublish }
      changed }

/-- What all endpoints do around their own statements. -/
def recorded (userId : Uuid) (operationId : OperationId)
    (requestHash : RequestHash) (kind : TeamOperationKind)
    (body : Transaction TeamOutcome) : Transaction TeamOutcome :=
  Script.transaction do
    let replay <- replayTeamOperation userId operationId requestHash kind
    match replay with
    | some outcome => return outcome
    | none => do
        let outcome <- body
        recordTeamOperation userId operationId requestHash kind outcome
        return outcome

/-!
## Endpoints
-/

def createTeam (userId : Uuid) (operationId : OperationId)
    (requestHash : RequestHash) (slug : Text) (namespaceId : Uuid) :
    Transaction TeamOutcome :=
  recorded userId operationId requestHash .create do
    let view : TableView <- Script.rows
    ensure (view.namespaceBySlug slug).isNone
      (ApiError.new .generationConflict
        ("@" ++ String.ofList slug ++ " is already in use"))
    insertNew (.namespaceRow namespaceId) ⟨namespaceId, slug, .team⟩
      "namespaces_pkey"
    insertNew (.team namespaceId) ⟨namespaceId, false⟩ "teams_pkey"
    references (.namespaceRow namespaceId) "teams_namespace_id_fkey"
    insertNew (.membership namespaceId userId) .owner
      "team_memberships_pkey"
    references (.team namespaceId) "team_memberships_team_namespace_id_fkey"
    references (.account userId) "team_memberships_user_id_fkey"
    return teamMutationSummary namespaceId slug .owner false true

def joinTeam (userId : Uuid) (operationId : OperationId)
    (requestHash : RequestHash) (codeHash : Digest) (now : Nat) :
    Transaction TeamOutcome :=
  recorded userId operationId requestHash .join do
    let invalid := ApiError.new .notFound "team invite is invalid"
    let bound : TableView <- Script.rows
    let _ <- okOr (bound.inviteByCode codeHash) invalid
    let view : TableView <- Script.rows
    let id <- okOr (view.inviteByCode codeHash) invalid
    let invite : Option TeamInvite <- Script.lockRow (TableKey.invite id)
    let invite <- okOr invite invalid
    let space : Namespace <- okOr
      (view.rows (.namespaceRow invite.teamNamespaceId)) invalid
    let team : Team <- okOr (view.rows (.team invite.teamNamespaceId)) invalid
    ensure (decide (now < invite.expiresAt))
      (ApiError.new .invalidRequest "team invite expired")
    ensure invite.usedByUserId.isNone
      (ApiError.new .invalidRequest "team invite was already used")
    ensure (!invite.revoked)
      (ApiError.new .invalidRequest "team invite was revoked")
    let view : TableView <- Script.rows
    ensure (view.rows (.membership invite.teamNamespaceId userId)).isNone
      (ApiError.new .invalidRequest "identity is already a team member")
    insertNew (.membership invite.teamNamespaceId userId) invite.role
      "team_memberships_pkey"
    references (.team invite.teamNamespaceId)
      "team_memberships_team_namespace_id_fkey"
    references (.account userId) "team_memberships_user_id_fkey"
    let _ <- Script.updateRow (.invite id) fun row =>
      if row.usedByUserId.isNone ∧ row.revoked = false then
        { row with usedByUserId := some userId }
      else row
    return teamMutationSummary invite.teamNamespaceId space.slug invite.role
      team.membersCanPublish true

def changeTeamMemberRole (userId : Uuid) (operationId : OperationId)
    (requestHash : RequestHash) (slug member : Text) (role : TeamRole) :
    Transaction TeamOutcome := do
  let separate := ApiError.new .invalidRequest
    "owner transfer is a separate operation"
  ensure (role != .owner) separate
  recorded userId operationId requestHash .memberRole do
    let (team, actorRole, membersCanPublish) <-
      teamMembershipForUpdate userId slug
    ensure (actorRole == .owner)
      (ApiError.new .unauthorized "only the team owner may change roles")
    let target <- userBySlug member
    let currentRole <- lockedMember team target "team member not found"
    ensure (currentRole != .owner) separate
    let changed := currentRole != role
    if changed then
      let _ <- Script.updateRow (.membership team target) fun _ => role
      if role = .member ∧ membersCanPublish = false then
        removeTeamWorkspacesForUser userId team target
    return teamMutationSummary team slug actorRole membersCanPublish changed

def removeTeamMember (userId : Uuid) (operationId : OperationId)
    (requestHash : RequestHash) (slug member : Text) :
    Transaction TeamOutcome :=
  recorded userId operationId requestHash .memberRemove do
    let (team, actorRole, membersCanPublish) <-
      teamMembershipForUpdate userId slug
    ensure (actorRole == .owner)
      (ApiError.new .unauthorized "only the team owner may remove members")
    let target <- userBySlug member
    let targetRole <- lockedMember team target "team member not found"
    ensure (targetRole != .owner)
      (ApiError.new .invalidRequest "the team owner cannot be removed")
    removeTeamWorkspacesForUser userId team target
    let _ <- Script.deleteRow (.membership team target)
    return teamMutationSummary team slug actorRole membersCanPublish true

def updateTeamSettings (userId : Uuid) (operationId : OperationId)
    (requestHash : RequestHash) (slug : Text) (membersCanPublish : Bool) :
    Transaction TeamOutcome :=
  recorded userId operationId requestHash .settings do
    let (team, actorRole, current) <- teamMembershipForUpdate userId slug
    ensure (actorRole == .owner)
      (ApiError.new .unauthorized
        "only the team owner may change team settings")
    let changed := current != membersCanPublish
    if changed then
      let _ <- Script.updateRow (.team team) fun row =>
        { row with membersCanPublish }
      if membersCanPublish = false then
        let view : TableView <- Script.rows
        let members := view.membersWhere team (· = .member)
        Script.each (removeTeamWorkspacesForUser userId team) members
        Script.rely [.membersCleared team members]
    return teamMutationSummary team slug actorRole membersCanPublish changed

def leaveTeam (userId : Uuid) (operationId : OperationId)
    (requestHash : RequestHash) (slug : Text) : Transaction TeamOutcome :=
  recorded userId operationId requestHash .leave do
    let (team, role, _) <- teamMembershipForUpdate userId slug
    ensure (role != .owner)
      (ApiError.new .invalidRequest
        "team owner must transfer ownership or delete the team before leaving")
    removeTeamWorkspacesForUser userId team userId
    let _ <- Script.deleteRow (.membership team userId)
    return .left { team := '@' :: slug, left := true }

def createTeamOwnerTransfer (userId : Uuid) (operationId : OperationId)
    (requestHash : RequestHash) (slug member : Text) (codeHash : Digest)
    (transferId : Uuid) : Transaction TeamOutcome :=
  recorded userId operationId requestHash .ownerTransfer do
    let (team, role, _) <- teamMembershipForUpdate userId slug
    ensure (role == .owner)
      (ApiError.new .unauthorized
        "only the current owner may initiate ownership transfer")
    let target <- userBySlug member
    let targetRole <- lockedMember team target
      "target must already be a team member"
    ensure (targetRole != .owner)
      (ApiError.new .invalidRequest "target is already the team owner")
    let view : TableView <- Script.rows
    Script.each
      (fun id => do
        let _ <- Script.updateRow (.transfer id) fun row =>
          if row.state = .pending then { row with state := .cancelled }
          else row)
      (view.pendingTransfers team)
    if h : userId ≠ target then
      insertNew (.transfer transferId)
        ⟨team, userId, target, codeHash, .pending, h⟩
        "team_owner_transfers_pkey"
    else Script.fail (internalApiError "team_owner_transfers_check")
    return .transfer
      { transferId
        team := '@' :: slug
        fromUserId := userId
        toUserId := target
        state := .pending }

/-- The owner of the team, locked. -/
def lockedOwner (team : Uuid) : Transaction Uuid := do
  let missing := internalApiError
    "no rows returned by a query that expected to return at least one row"
  let view : TableView <- Script.rows
  let owner <- okOr (view.membersWhere team (· = .owner)).head? missing
  let role : Option TeamRole <-
    Script.lockRow (TableKey.membership team owner)
  ensure (role == some .owner) missing
  return owner

def acceptTeamOwnerTransfer (userId : Uuid) (operationId : OperationId)
    (requestHash : RequestHash) (codeHash : Digest) :
    Transaction TeamOutcome :=
  recorded userId operationId requestHash .ownerTransferAccept do
    let missing := ApiError.new .notFound "ownership transfer not found"
    let view : TableView <- Script.rows
    let id <- okOr (view.transferByCode codeHash) missing
    let row : Option TeamOwnerTransfer <-
      Script.lockRow (TableKey.transfer id)
    let row <- okOr row missing
    let space : Namespace <- okOr
      (view.rows (.namespaceRow row.teamNamespaceId)) missing
    ensure (row.toUserId == userId)
      (ApiError.new .unauthorized
        "only the nominated member may accept ownership transfer")
    ensure (row.state == .pending)
      (ApiError.new .invalidRequest
        "ownership transfer is no longer pending")
    let currentOwner <- lockedOwner row.teamNamespaceId
    ensure (currentOwner == row.fromUserId)
      (ApiError.new .generationConflict
        "team ownership changed before this transfer was accepted")
    let view : TableView <- Script.rows
    ensure (view.rows
        (.membership row.teamNamespaceId row.toUserId)).isSome
      (ApiError.new .invalidRequest
        "nominated owner is no longer a team member")
    let _ <- Script.updateRow
      (.membership row.teamNamespaceId row.fromUserId) fun _ => .maintainer
    Script.rely [.member row.teamNamespaceId row.toUserId]
    let _ <- Script.updateRow
      (.membership row.teamNamespaceId row.toUserId) fun _ => .owner
    let _ <- Script.updateRow (.transfer id) fun row =>
      { row with state := .accepted }
    return .transfer
      { transferId := id
        team := '@' :: space.slug
        fromUserId := row.fromUserId
        toUserId := row.toUserId
        state := .accepted }

/-- The first team of which the user turns out to be the owner. -/
def lockedOwnership (userId : Uuid) : List Uuid -> Transaction (Option Uuid)
  | [] => return none
  | team :: rest => do
      let role : Option TeamRole <-
        Script.lockRow (TableKey.membership team userId)
      if role = some .owner then return some team
      else lockedOwnership userId rest

/-- The teams that the user owns, in the order of their names. -/
def ownedTeams (view : TableView) (userId : Uuid) : List Uuid :=
  sortByKey
    (fun team => utf8 (((view.rows (.namespaceRow team)).map
      Namespace.slug).getD []))
    (view.teamsWhere userId (· = .owner))

def ownsTeam (view : TableView) (team : Uuid) : ApiError :=
  ApiError.new .invalidRequest
    ("account owns @" ++
      String.ofList (((view.rows (.namespaceRow team)).map
        Namespace.slug).getD []) ++
      "; team ownership succession must be completed before deleting the account")

def deleteAccount (userId : Uuid) : Transaction TeamOutcome :=
  Script.transaction do
    let invalid := ApiError.new .unauthorized "invalid identity credential"
    let account : Option Account <- Script.lockRow (TableKey.account userId)
    let account <- okOr (account.filter fun row => !row.deleted) invalid
    let namespaceId <- okOr account.namespaceId invalid
    let space : Option Namespace <-
      Script.lockRow (TableKey.namespaceRow namespaceId)
    let space <- okOr space invalid
    let view : TableView <- Script.rows
    let owned <- lockedOwnership userId (ownedTeams view userId)
    match owned with
    | some team => Script.fail (ownsTeam view team)
    | none => do
        let view : TableView <- Script.rows
        let joined <- Script.filterEach
          (fun team => do
            let role : Option TeamRole <-
              Script.lockRow (TableKey.membership team userId)
            return role.isSome)
          (sortByKey Vector.toList (view.teamsWhere userId fun _ => true))
        Script.each
          (fun team => removeTeamWorkspacesForUser userId team userId) joined
        let view : TableView <- Script.select
          (fun view : TableView =>
            [.ownsNone userId (view.teamsWhere userId fun _ => true)])
          Script.done
        Script.each
          (fun team => do
            let _ <- Script.deleteRow (.membership team userId))
          (view.teamsWhere userId fun _ => true)
        let _ <- Script.updateRow (.account userId) fun _ => ⟨none, true⟩
        let _ <- Script.deleteRow (.namespaceRow namespaceId)
        return .accountDeleted
          { deleted := true, username := '@' :: space.slug }

end Transaction
end Denju
