import Denju.Registry.TeamRuns
import Denju.Lib.RowPolicies

/-!
# Ownership transfers under row policies

An acceptance runs with the rights of the nominee.  It locks the membership of
the owner before it checks and moves the role, and a locking read needs the
authority to update the row.  Only the owner and the member itself have it, so
the nominee never finds an owner, and every acceptance ends before its first
change.
-/

namespace Denju

open Lib Policies

/-!
## Policies
-/

namespace TableView

def actorHasNamespaceAccess (view : TableView) (actor space : Uuid) : Bool :=
  ((view.rows (.account actor)).any fun row =>
    !row.deleted && row.namespaceId == some space) ||
  (view.rows (.membership space actor)).isSome

def actorIsTeamOwner (view : TableView) (actor team : Uuid) : Bool :=
  view.rows (.membership team actor) == some .owner

/-- No invite is bound outside of the transaction that joins a team. -/
def actorCanAddTeamMember (view : TableView) (actor team user : Uuid) : Bool :=
  view.actorIsTeamOwner actor team ||
    (user == actor && (view.membersWhere team fun _ => true).isEmpty)

end TableView

/-- The policies of memberships, of ownership transfers and of the operations
of teams.  Namespaces have none; no statement of an acceptance touches the
other tables. -/
def teamPolicies (actor : Uuid) : Policies TableRow ApiError where
  reads view
    | .membership team user, _ =>
        user == actor || TableView.actorHasNamespaceAccess view actor team
    | .transfer _, row =>
        row.fromUserId == actor || row.toUserId == actor ||
          TableView.actorHasNamespaceAccess view actor
            row.teamNamespaceId
    | .operation user _, _ => user == actor
    | _, _ => true
  inserts view
    | .membership team user, _ =>
        TableView.actorCanAddTeamMember view actor team user
    | .transfer _, row =>
        TableView.actorHasNamespaceAccess view actor
            row.teamNamespaceId
    | .operation user _, _ => user == actor
    | _, _ => true
  updates view
    | .membership team user, _ =>
        user == actor || TableView.actorIsTeamOwner view actor team
    | .transfer _, row =>
        row.fromUserId == actor || row.toUserId == actor ||
          TableView.actorHasNamespaceAccess view actor
            row.teamNamespaceId
    | .operation user _, _ => user == actor
    | _, _ => true
  leaves view
    | .membership team user, _ =>
        user == actor || TableView.actorIsTeamOwner view actor team
    | .transfer _, row =>
        TableView.actorHasNamespaceAccess view actor
            row.teamNamespaceId
    | .operation user _, _ => user == actor
    | _, _ => true
  deletes view
    | .membership team user, _ =>
        user == actor || TableView.actorIsTeamOwner view actor team
    | .transfer _, row =>
        row.fromUserId == actor || row.toUserId == actor ||
          TableView.actorHasNamespaceAccess view actor
            row.teamNamespaceId
    | .operation user _, _ => user == actor
    | _, _ => true
  refusal := internalApiError "new row violates row-level security policy"

/-!
## What an acceptance has to do
-/

/-- The unique index on the owners of a team. -/
def OwnersUnique (rows : Rows TableRow) : Prop :=
  forall team user other, rows (.membership team user) = some .owner ->
    rows (.membership team other) = some .owner -> user = other

/-- A pending transfer from the owner to a member. -/
structure AwaitsAcceptance (rows : Rows TableRow) (id : Uuid)
    (row : TeamOwnerTransfer) : Prop where
  found : rows (.transfer id) = some row
  pending : row.state = .pending
  owner : rows (.membership row.teamNamespaceId row.fromUserId) = some .owner
  member : (rows (.membership row.teamNamespaceId row.toUserId)).isSome

/-- The nominee is the only owner, the former owner is a maintainer, and no
other membership is different. -/
structure OwnershipMoved (before after : Rows TableRow)
    (row : TeamOwnerTransfer) : Prop where
  owner : after (.membership row.teamNamespaceId row.toUserId) = some .owner
  sole : forall user,
    after (.membership row.teamNamespaceId user) = some .owner ->
      user = row.toUserId
  former : after (.membership row.teamNamespaceId row.fromUserId) =
    some .maintainer
  others : forall team user,
    ¬(team = row.teamNamespaceId ∧
      (user = row.fromUserId ∨ user = row.toUserId)) ->
        after (.membership team user) = before (.membership team user)

/-- The error of a query that returns no row. -/
def ownerMissing : ApiError :=
  internalApiError
    "no rows returned by a query that expected to return at least one row"

/-- An acceptance by a user, as a transaction of its own. -/
def accept (userId : Uuid) (operationId : OperationId)
    (requestHash : RequestHash) (codeHash : Digest) (view : TableView) :
    Except ApiError TeamOutcome × TableView :=
  (teamPolicies userId).run
    (Transaction.acceptTeamOwnerTransfer userId operationId requestHash
      codeHash) view

/-- The nominee gets the team, and neither another caller nor a second
acceptance changes anything. -/
structure AcceptanceWorks (view : TableView) (row : TeamOwnerTransfer)
    (operationId : OperationId) (requestHash : RequestHash) : Prop where
  succeeds : exists outcome,
    (accept row.toUserId operationId requestHash row.codeHash view).1 =
      .ok outcome
  moves : OwnershipMoved view.rows
    (accept row.toUserId operationId requestHash row.codeHash view).2.rows row
  onlyNominee : forall user other hash, user ≠ row.toUserId ->
    (accept user other hash row.codeHash view).2 = view
  once : forall user other hash,
    (accept user other hash row.codeHash
      (accept row.toUserId operationId requestHash row.codeHash view).2).2 =
    (accept row.toUserId operationId requestHash row.codeHash view).2

/-!
## Acceptances
-/

namespace Transaction

variable {view : TableView} {actor : Uuid}

/-- Nobody but the owner of a team can lock its owner. -/
theorem owner_of_lockable (hunique : OwnersUnique view.rows)
    {team user : Uuid}
    (h : (teamPolicies actor).lockable view (.membership team user) =
      some .owner) : user = actor := by
  rcases Option.filter_eq_some_iff.mp h with ⟨hrow, hallowed⟩
  have hupdates := (Bool.and_eq_true_iff.mp hallowed).2
  rcases Bool.or_eq_true_iff.mp hupdates with hself | howner
  · exact eq_of_beq hself
  · exact hunique team user actor hrow (eq_of_beq howner)

/-- The locked owner is the actor, or there is none. -/
theorem lockedOwner_ends (hunique : OwnersUnique view.rows) (team : Uuid) :
    (teamPolicies actor).Ends (lockedOwner team) (Session.idle view)
      (fun result after => after = Session.idle view ∧
        forall owner, result = .ok owner -> owner = actor) := by
  unfold lockedOwner
  apply Ends.rows_bind
  apply Ends.lift_bind
  · intro owner _
    apply Ends.lockRow_bind
    apply Ends.lift_bind
    · intro _ hlocked
      constructor
      · rfl
      · intro found hfound
        cases hfound
        have hrole := (ensure_eq_ok.mp hlocked)
        exact owner_of_lockable hunique (eq_of_beq hrole)
    · intro error _
      constructor
      · rfl
      · intro found hfound
        cases hfound
  · intro error _
    constructor
    · rfl
    · intro found hfound
      cases hfound

/-- An endpoint whose own statements fail changes nothing.  It returns only
what it has recorded before. -/
theorem recorded_ends {operationId : OperationId} {requestHash : RequestHash}
    {kind : TeamOperationKind} {body : Transaction TeamOutcome}
    (hbody : (teamPolicies actor).Ends body (Session.idle view)
      (fun result after => after = Session.idle view ∧
        exists error, result = .error error)) :
    (teamPolicies actor).Ends
      (recorded actor operationId requestHash kind body) (Session.idle view)
      (fun result after => after = Session.idle view ∧
        forall outcome, result = .ok outcome ->
          exists row, view.rows (.operation actor operationId) = some row ∧
            outcome = row.outcome) := by
  unfold recorded Script.transaction replayTeamOperation
  apply Ends.bind
  apply Ends.bind
  apply Ends.rows_bind
  cases hrow : ((teamPolicies actor).visible (Session.idle view).current).rows
      (.operation actor operationId) with
  | none =>
      simp only [hrow]
      apply Ends.done
      apply Ends.bind
      apply Ends.mono hbody
      rintro result after ⟨rfl, error, rfl⟩
      constructor
      · rfl
      · intro outcome hok
        cases hok
  | some row =>
      simp only [hrow]
      have hfound := (View.rows_of_filter hrow).1
      apply Ends.lift_bind
      · intro _ _
        apply Ends.done
        apply Ends.done
        apply Ends.commit
        apply Ends.done
        constructor
        · rfl
        · intro outcome hok
          cases hok
          exact ⟨row, hfound, rfl⟩
      · intro error _
        constructor
        · rfl
        · intro outcome hok
          cases hok

/-- An acceptance ends before its first change, whoever calls it. -/
theorem acceptTeamOwnerTransfer_ends (hunique : OwnersUnique view.rows)
    (operationId : OperationId) (requestHash : RequestHash)
    (codeHash : Digest) :
    (teamPolicies actor).Ends
      (acceptTeamOwnerTransfer actor operationId requestHash codeHash)
      (Session.idle view)
      (fun result after => after = Session.idle view ∧
        forall outcome, result = .ok outcome ->
          exists row, view.rows (.operation actor operationId) = some row ∧
            outcome = row.outcome) := by
  unfold acceptTeamOwnerTransfer
  apply recorded_ends
  have herror : forall error : ApiError,
      (Session.idle view).rollback = Session.idle view ∧
        exists other, (.error error : Except ApiError TeamOutcome) =
          .error other :=
    fun error => ⟨rfl, error, rfl⟩
  apply Ends.rows_bind
  apply Ends.lift_bind _ fun error _ => herror error
  intro id _
  apply Ends.lockRow_bind
  apply Ends.lift_bind _ fun error _ => herror error
  intro row _
  apply Ends.lift_bind _ fun error _ => herror error
  intro space _
  apply Ends.lift_bind _ fun error _ => herror error
  intro _ hnominee
  apply Ends.lift_bind _ fun error _ => herror error
  intro _ _
  apply Ends.bind
  apply Ends.mono (lockedOwner_ends hunique row.teamNamespaceId)
  rintro result after ⟨rfl, howner⟩
  cases result with
  | error error => exact herror error
  | ok owner =>
      apply Ends.lift_bind _ fun error _ => herror error
      intro _ hfrom
      exfalso
      have hactor := howner owner rfl
      have hto := eq_of_beq (ensure_eq_ok.mp hnominee)
      have hsame := eq_of_beq (ensure_eq_ok.mp hfrom)
      apply row.distinct
      rw [<- hsame, hactor, hto]

end Transaction

/-- No acceptance changes a row, whatever its caller and its code. -/
theorem accept_unchanged {view : TableView} (hunique : OwnersUnique view.rows)
    (userId : Uuid) (operationId : OperationId) (requestHash : RequestHash)
    (codeHash : Digest) :
    (accept userId operationId requestHash codeHash view).2 = view := by
  have hends := @Transaction.acceptTeamOwnerTransfer_ends view userId hunique
    operationId requestHash codeHash
  have hafter := hends.1
  unfold accept Policies.run
  rw [hafter]
  rfl

/-- A state that an acceptance leaves as it is has another owner. -/
theorem not_ownershipMoved {rows : Rows TableRow} (hunique : OwnersUnique rows)
    {id : Uuid} {row : TeamOwnerTransfer} (h : AwaitsAcceptance rows id row) :
    ¬OwnershipMoved rows rows row := by
  intro hmoved
  apply row.distinct
  exact hunique _ _ _ h.owner hmoved.owner

theorem accept_never_works {view : TableView}
    (hunique : OwnersUnique view.rows) {id : Uuid} {row : TeamOwnerTransfer}
    (h : AwaitsAcceptance view.rows id row) (operationId : OperationId)
    (requestHash : RequestHash) :
    ¬AcceptanceWorks view row operationId requestHash := by
  intro hworks
  have hmoves := hworks.moves
  rw [accept_unchanged hunique] at hmoves
  exact not_ownershipMoved hunique h hmoves

namespace Sample

theorem nominating_awaitsAcceptance :
    AwaitsAcceptance nominating.rows (uuid 10) nomination := by
  constructor
  · decide +kernel
  · rfl
  · decide +kernel
  · decide +kernel

end Sample

theorem accept_never_works_nominating :
    ¬AcceptanceWorks Sample.nominating Sample.nomination
      (Sample.operationId 1) (digestOfNat 1) :=
  accept_never_works Sample.nominating_oneOwner.unique
    Sample.nominating_awaitsAcceptance (Sample.operationId 1)
    (digestOfNat 1)

/-- The nominated member is refused, with an error of the database. -/
theorem accept_never_works_refused :
    AwaitsAcceptance Sample.nominating.rows (Sample.uuid 10)
        Sample.nomination ∧
      (accept Sample.bob.id (Sample.operationId 1) (digestOfNat 1)
        Sample.nominationCode Sample.nominating).1 = .error ownerMissing ∧
      ¬AcceptanceWorks Sample.nominating Sample.nomination
        (Sample.operationId 1) (digestOfNat 1) := by
  have herror : (accept Sample.bob.id (Sample.operationId 1) (digestOfNat 1)
      Sample.nominationCode Sample.nominating).1 = .error ownerMissing := by
    rfl
  constructor
  · exact Sample.nominating_awaitsAcceptance
  · constructor
    · exact herror
    · intro hworks
      rcases hworks.succeeds with ⟨outcome, hok⟩
      have hsame := herror.symm.trans hok
      cases hsame

end Denju
