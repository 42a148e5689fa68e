import Denju.Registry.TeamOwners
import Denju.Registry.AncestryAccess

/-!
# Interleaved transactions of teams

Any number of requests run at once, statement by statement.  Every team keeps
one owner as long as the nominee of an acceptance is a member when the
acceptance makes it the owner, and a deleted account owns no team when it leaves
its teams.  The checks of neither of them last until then, and a team can end up
without an owner.
-/

namespace Denju

open Lib

/-- What users ask of their teams and of their account. -/
inductive TeamRequest where
  | create (userId : Uuid) (operationId : OperationId)
      (requestHash : RequestHash) (slug : Text) (namespaceId : Uuid)
  | join (userId : Uuid) (operationId : OperationId)
      (requestHash : RequestHash) (codeHash : Digest) (now : Nat)
  | memberRole (userId : Uuid) (operationId : OperationId)
      (requestHash : RequestHash) (slug member : Text) (role : TeamRole)
  | memberRemove (userId : Uuid) (operationId : OperationId)
      (requestHash : RequestHash) (slug member : Text)
  | settings (userId : Uuid) (operationId : OperationId)
      (requestHash : RequestHash) (slug : Text) (membersCanPublish : Bool)
  | leave (userId : Uuid) (operationId : OperationId)
      (requestHash : RequestHash) (slug : Text)
  | ownerTransfer (userId : Uuid) (operationId : OperationId)
      (requestHash : RequestHash) (slug member : Text) (codeHash : Digest)
      (transferId : Uuid)
  | ownerTransferAccept (userId : Uuid) (operationId : OperationId)
      (requestHash : RequestHash) (codeHash : Digest)
  | deleteAccount (userId : Uuid)

def TeamRequest.script : TeamRequest -> Transaction TeamOutcome
  | create userId operationId requestHash slug namespaceId =>
      Transaction.createTeam userId operationId requestHash slug namespaceId
  | join userId operationId requestHash codeHash now =>
      Transaction.joinTeam userId operationId requestHash codeHash now
  | memberRole userId operationId requestHash slug member role =>
      Transaction.changeTeamMemberRole userId operationId requestHash slug
        member role
  | memberRemove userId operationId requestHash slug member =>
      Transaction.removeTeamMember userId operationId requestHash slug member
  | settings userId operationId requestHash slug membersCanPublish =>
      Transaction.updateTeamSettings userId operationId requestHash slug
        membersCanPublish
  | leave userId operationId requestHash slug =>
      Transaction.leaveTeam userId operationId requestHash slug
  | ownerTransfer userId operationId requestHash slug member codeHash
      transferId =>
      Transaction.createTeamOwnerTransfer userId operationId requestHash slug
        member codeHash transferId
  | ownerTransferAccept userId operationId requestHash codeHash =>
      Transaction.acceptTeamOwnerTransfer userId operationId requestHash
        codeHash
  | deleteAccount userId => Transaction.deleteAccount userId

def TeamRequest.Runs (script : Transaction TeamOutcome) : Prop :=
  exists request : TeamRequest, script = request.script

abbrev TeamSchedule (τ : Type) := Schedule τ TableRow Note ApiError TeamOutcome

abbrev TeamTurn (τ : Type) := Turn τ TableRow Note ApiError TeamOutcome

/-!
## One owner
-/

theorem TeamRequest.runs_verified {script : Transaction TeamOutcome}
    (h : TeamRequest.Runs script) :
    ownerContract.Verified script .empty [] fun _ _ _ => True := by
  rcases h with ⟨request, rfl⟩
  cases request with
  | create => exact Transaction.kept_createTeam.verified
  | join => exact Transaction.kept_joinTeam.verified
  | memberRole => exact Transaction.kept_changeTeamMemberRole.verified
  | memberRemove => exact Transaction.kept_removeTeamMember.verified
  | settings => exact Transaction.kept_updateTeamSettings.verified
  | leave => exact Transaction.kept_leaveTeam.verified
  | ownerTransfer => exact Transaction.kept_createTeamOwnerTransfer.verified
  | ownerTransferAccept =>
      exact Transaction.kept_acceptTeamOwnerTransfer.verified
  | deleteAccount => exact Transaction.kept_deleteAccount.verified

/-- The nominee of an acceptance is a member when it is made the owner, and an
account owns no team when it leaves its teams. -/
def TeamSchedule.ChecksLast {τ : Type} [DecidableEq τ]
    (schedule : TeamSchedule τ) (turn : TeamTurn τ)
    (schedule' : TeamSchedule τ) : Prop :=
  Schedule.Respecting ownerContract TeamRequest.Runs schedule turn schedule'

/-- Every team keeps one owner in all runs in which the checks last. -/
theorem TeamSchedule.one_owner {τ : Type} [DecidableEq τ] {view : TableView}
    {turns : List (TeamTurn τ)} {schedule : TeamSchedule τ}
    (hstart : OneOwner view.rows)
    (hrun : Run (Schedule.Step TeamSchedule.ChecksLast) (Schedule.idle view)
      turns schedule) (team : Uuid)
    (hteam : (schedule.store.committed (.team team)).isSome) :
    ∃! user, schedule.store.committed (.membership team user) =
      some .owner := by
  have hsound := Schedule.sound_run (fun _ => TeamRequest.runs_verified) hstart
    hrun
  rcases hsound.invariant.owned team hteam with ⟨user, howner⟩
  refine ⟨user, howner, ?_⟩
  intro other hother
  exact hsound.invariant.unique team other user hother howner

/-!
## A nomination

The owner of a team has nominated a member, who accepts, or accepts and leaves
at once.
-/

namespace Sample

def crew : Uuid :=
  uuid 9

def nominationCode : Digest :=
  digestOfNat 7

def nomination : TeamOwnerTransfer where
  teamNamespaceId := crew
  fromUserId := amy.id
  toUserId := bob.id
  codeHash := nominationCode
  state := .pending
  distinct := by decide

def nominating : TableView :=
  View.ofList [
    ⟨.namespaceRow crew, ⟨crew, "crew".toList, .team⟩⟩,
    ⟨.team crew, ⟨crew, false⟩⟩,
    ⟨.membership crew amy.id, .owner⟩,
    ⟨.membership crew bob.id, .member⟩,
    ⟨.transfer (uuid 10), nomination⟩]

def acceptance : TeamRequest :=
  .ownerTransferAccept bob.id (operationId 1) (digestOfNat 1) nominationCode

def departure : TeamRequest :=
  .leave bob.id (operationId 2) (digestOfNat 2) "crew".toList

def accepting : List (TeamTurn Bool) :=
  .start true acceptance.script :: List.replicate 11 (.step true)

def abandoning : List (TeamTurn Bool) :=
  .start true acceptance.script :: List.replicate 6 (.step true) ++
    .start false departure.script :: List.replicate 10 (.step false) ++
    List.replicate 6 (.step true)

theorem nominating_oneOwner : OneOwner nominating.rows := by
  constructor
  · intro team hteam
    rcases Option.isSome_iff_exists.mp hteam with ⟨row, hrow⟩
    have hentry := View.mem_of_rows_ofList hrow
    have hcrew : team = crew := by
      simp at hentry
      exact hentry.1
    rw [hcrew]
    exact ⟨amy.id, by decide +kernel⟩
  · intro team user other huser hother
    have hentry := View.mem_of_rows_ofList huser
    have hentry' := View.mem_of_rows_ofList hother
    simp at hentry hentry'
    rw [hentry.2, hentry'.2]
  · intro team user hmember
    rcases Option.isSome_iff_exists.mp hmember with ⟨row, hrow⟩
    have hentry := View.mem_of_rows_ofList hrow
    have hcrew : team = crew := by
      simp at hentry
      exact hentry.elim (fun h => h.1.1) fun h => h.1.1
    rw [hcrew]
    decide +kernel

end Sample

theorem TeamSchedule.one_owner_accepting :
    exists schedule : TeamSchedule Bool,
      Schedule.takeAll (Schedule.respects ownerCheck)
        (Schedule.idle Sample.nominating) Sample.accepting = some schedule ∧
      ∃! user, schedule.store.committed (.membership Sample.crew user) =
        some .owner := by
  have hend : (Schedule.takeAll (Schedule.respects ownerCheck)
      (Schedule.idle Sample.nominating) Sample.accepting).map
        (fun schedule =>
          (schedule.store.committed (.team Sample.crew)).isSome) =
      some true := by decide +kernel
  rcases Option.map_eq_some_iff.mp hend with ⟨schedule, htaken, hteam⟩
  have hrun := @Schedule.run_takeAll _ _ _ _ _ _ _ _ TeamSchedule.ChecksLast
    _ _ _ _ _ _ .nil ?_ htaken
  · exact ⟨schedule, htaken, TeamSchedule.one_owner
      Sample.nominating_oneOwner hrun Sample.crew hteam⟩
  · rintro before turn after hturn hrespects
    constructor
    · rintro tx script rfl
      simp [Sample.accepting] at hturn
      rw [hturn.2]
      exact ⟨Sample.acceptance, rfl⟩
    · exact Schedule.respects_sound
        (fun _ _ => ownerContract_holds_of_check) hrespects

theorem TeamSchedule.nominee_leaves :
    ¬forall (view : TableView) (turns : List (TeamTurn Bool))
      (schedule : TeamSchedule Bool), OneOwner view.rows ->
        Run (Schedule.Step (Schedule.Starting TeamRequest.Runs))
          (Schedule.idle view) turns schedule ->
        schedule.Quiet ->
        forall team, (schedule.store.committed (.team team)).isSome ->
          ∃! user, schedule.store.committed (.membership team user) =
            some .owner := by
  intro hclaim
  have hend : (Schedule.takeAll (fun _ => true)
      (Schedule.idle Sample.nominating) Sample.abandoning).map
        (fun schedule =>
          (decide (forall tx, (schedule.running tx).all Process.finished),
            (schedule.store.committed (.team Sample.crew)).isSome,
            TableView.membersWhere schedule.store.committedView Sample.crew
              (· = .owner))) = some (true, true, []) := by decide +kernel
  rcases Option.map_eq_some_iff.mp hend with ⟨schedule, htaken, hend⟩
  simp only [Prod.mk.injEq, decide_eq_true_eq] at hend
  rcases hend with ⟨hquiet, hteam, hnone⟩
  have hrun := @Schedule.run_takeAll _ _ _ _ _ _ _ _
    (Schedule.Starting TeamRequest.Runs) _ _ _ _ _ _ .nil ?_ htaken
  · rcases hclaim _ _ _ Sample.nominating_oneOwner hrun hquiet Sample.crew hteam
      with ⟨user, howner, _⟩
    have hmember : user ∈
        TableView.membersWhere schedule.store.committedView Sample.crew
          (· = .owner) := TableView.mem_membersWhere.mpr ⟨_, howner, rfl⟩
    rw [hnone] at hmember
    cases hmember
  · rintro before turn after hturn _ tx script rfl
    have hstarts : script = Sample.acceptance.script ∨
        script = Sample.departure.script := by
      simp [Sample.abandoning] at hturn
      exact hturn.imp And.right And.right
    rcases hstarts with rfl | rfl
    · exact ⟨Sample.acceptance, rfl⟩
    · exact ⟨Sample.departure, rfl⟩

end Denju
