import Denju.Registry.Conflicts
import Denju.Registry.Receipts

/-!
# The calls that are answered once

Every call of the registry that looks for its record, and what it records.
-/

namespace Denju

open Lib

/-- A record of this request for this target. -/
def SameRequest (hash : RequestHash) (target : Uuid)
    (receipt : RequestReceipt) : Prop :=
  receipt.requestHash = hash ∧ receipt.target = target

/-- A record of this request, whatever its target. -/
def SameHash (hash : RequestHash) (receipt : RequestReceipt) : Prop :=
  receipt.requestHash = hash

/-!
## Looking for a record
-/

/-- A record is first checked, and then its answer selected. -/
theorem LooksUp.ofChecks {table : RequestTable} {β : Type}
    {found : Option (OperationRow table.Outcome)}
    {fits : RequestReceipt -> Prop} {select : table.Outcome -> Option β}
    {replay : Except ApiError (Option β)}
    {differs : ApiError} (check : OperationRow table.Outcome -> Bool)
    (hnone : found = none -> replay = .ok none)
    (hsome : forall row, found = some row -> replay =
      (ensure (check row) differs >>= fun _ =>
        okOr (select row.outcome) differs >>= fun outcome =>
          .ok (some outcome)))
    (hcheck : forall row,
      check row = true <-> fits ⟨row.requestHash, row.target⟩) :
    LooksUp found fits select replay where
  fresh := hnone
  hit := by
    intro row outcome hrow hfits hselected
    rw [hsome row hrow]
    have hpassed : ensure (check row) differs = .ok () :=
      ensure_eq_ok.mpr ((hcheck row).mpr hfits)
    exact bind_eq_ok.mpr ⟨(), hpassed,
      bind_eq_ok.mpr ⟨outcome, okOr_eq_ok.mpr hselected, rfl⟩⟩
  miss := by
    intro row answer hrow hanswer
    rw [hsome row hrow] at hanswer
    rcases bind_eq_ok.mp hanswer with ⟨_, hpassed, hanswer⟩
    rcases bind_eq_ok.mp hanswer with ⟨outcome, hselected, hanswer⟩
    cases hanswer
    exact ⟨(hcheck row).mp (ensure_eq_ok.mp hpassed), outcome,
      okOr_eq_ok.mp hselected, rfl⟩

namespace Db

variable {db : Db} {user target : Uuid} {operationId : OperationId}
  {hash : RequestHash} {β : Type}

theorem replayOperation_replays {table : RequestTable}
    {rows : List (OperationRow table.Outcome)} {mismatch : String} :
    LooksUp (findOperation rows user operationId) (SameRequest hash target)
      some
      (replayOperation rows user operationId hash target mismatch) := by
  apply LooksUp.ofChecks fun row =>
    row.requestHash == hash && row.target == target
  · intro hnone
    unfold replayOperation
    rw [hnone]
  · intro row hrow
    unfold replayOperation
    rw [hrow]
    rfl
  · intro row
    simp [SameRequest]

theorem replayLifecycleOperation_replays
    {select : LifecycleOutcome -> Option β} :
    @LooksUp .lifecycle _
      (findOperation db.lifecycleOperations user operationId)
      (SameRequest hash target) select
      (db.replayLifecycleOperation select user operationId hash target) := by
  apply LooksUp.ofChecks fun row =>
    row.requestHash == hash && row.target == target
  · intro hnone
    unfold replayLifecycleOperation
    rw [hnone]
  · intro row hrow
    unfold replayLifecycleOperation
    rw [hrow]
    rfl
  · intro row
    simp [SameRequest]

theorem replayPackOperation_replays {select : PackOutcome -> Option β} :
    @LooksUp .pack _
      (findOperation db.packOperations user operationId) (SameHash hash) select
      (db.replayPackOperation select user operationId hash) := by
  apply LooksUp.ofChecks fun row => row.requestHash == hash
  · intro hnone
    unfold replayPackOperation
    rw [hnone]
  · intro row hrow
    unfold replayPackOperation
    rw [hrow]
    rfl
  · intro row
    exact beq_iff_eq

theorem replayTeamOperation_replays
    {select : TeamOperationOutcome -> Option β} :
    @LooksUp .team _
      (findOperation db.teamOperations user operationId) (SameHash hash) select
      (db.replayTeamOperation select user operationId hash) := by
  apply LooksUp.ofChecks fun row => row.requestHash == hash
  · intro hnone
    unfold replayTeamOperation
    rw [hnone]
  · intro row hrow
    unfold replayTeamOperation
    rw [hrow]
    rfl
  · intro row
    exact beq_iff_eq

theorem replayAdminOperation_replays {kind : AdminQuarantineMutationKind} :
    @LooksUp .admin _
      (findOperation db.adminOperations user operationId) (SameHash hash)
      (fun outcome => outcome.mutation? kind)
      (Registry.replayAdminOperation db kind user operationId hash) := by
  apply LooksUp.ofChecks fun row => row.requestHash == hash
  · intro hnone
    unfold Registry.replayAdminOperation
    rw [hnone]
  · intro row hrow
    unfold Registry.replayAdminOperation
    rw [hrow]
    rfl
  · intro row
    exact beq_iff_eq

/-- The answer of a proposal operation with the action. -/
def proposalAnswer (action : ProposalAction)
    (outcome : ProposalAction × SkillProposal) : Option SkillProposal :=
  if outcome.1 = action then some outcome.2 else none

theorem replayProposalOperation_replays {action : ProposalAction} :
    @LooksUp .proposal _
      (findOperation db.proposalOperations user operationId) (SameHash hash)
      (proposalAnswer action)
      (db.replayProposalOperation user operationId hash action) := by
  apply LooksUp.ofChecks fun row => row.requestHash == hash
  · intro hnone
    unfold replayProposalOperation
    rw [hnone]
  · intro row hrow
    unfold replayProposalOperation proposalAnswer
    rw [hrow]
    by_cases haction : row.outcome.1 = action
    · simp only [haction, decide_true, Bool.and_true, if_true]
      rfl
    · simp only [haction, decide_false, Bool.and_false, if_false]
      cases row.requestHash == hash with
      | true => rfl
      | false => rfl
  · intro row
    exact beq_iff_eq

/-!
## Recording an answer
-/

theorem operations_release (start : Db)
    (rows : List (OperationRow PublishSkillResponse)) :
    ({ start with releaseOperations := rows } : Db).operations =
      Function.update start.operations .release rows := by
  funext table
  cases table <;> rfl

theorem operations_restore (start : Db)
    (rows : List (OperationRow PrivateRevisionResponse)) :
    ({ start with restoreOperations := rows } : Db).operations =
      Function.update start.operations .restore rows := by
  funext table
  cases table <;> rfl

theorem operations_lifecycle (start : Db)
    (rows : List (OperationRow LifecycleOutcome)) :
    ({ start with lifecycleOperations := rows } : Db).operations =
      Function.update start.operations .lifecycle rows := by
  funext table
  cases table <;> rfl

theorem operations_transfer (start : Db)
    (rows : List (OperationRow ResourceTransferResponse)) :
    ({ start with transferOperations := rows } : Db).operations =
      Function.update start.operations .transfer rows := by
  funext table
  cases table <;> rfl

theorem operations_proposal (start : Db)
    (rows : List (OperationRow (ProposalAction × SkillProposal))) :
    ({ start with proposalOperations := rows } : Db).operations =
      Function.update start.operations .proposal rows := by
  funext table
  cases table <;> rfl

theorem operations_pack (start : Db)
    (rows : List (OperationRow PackOutcome)) :
    ({ start with packOperations := rows } : Db).operations =
      Function.update start.operations .pack rows := by
  funext table
  cases table <;> rfl

theorem operations_share (start : Db)
    (rows : List (OperationRow ShareSkillResponse)) :
    ({ start with shareOperations := rows } : Db).operations =
      Function.update start.operations .share rows := by
  funext table
  cases table <;> rfl

theorem operations_admin (start : Db)
    (rows : List (OperationRow AdminOutcome)) :
    ({ start with adminOperations := rows } : Db).operations =
      Function.update start.operations .admin rows := by
  funext table
  cases table <;> rfl

theorem operations_team (start : Db)
    (rows : List (OperationRow TeamOperationOutcome)) :
    ({ start with teamOperations := rows } : Db).operations =
      Function.update start.operations .team rows := by
  funext table
  cases table <;> rfl

section Recording

variable {db' start : Db}

/-- An answer is recorded after a change that leaves the records alone. -/
theorem Records.ofRecorded {table : RequestTable}
    {row : OperationRow table.Outcome}
    {rows : List (OperationRow table.Outcome)} {key : String}
    (hstart : start.operations = db.operations)
    (hrecorded : recordOperation (start.operations table) row key = .ok rows)
    (hdb' : db'.operations = Function.update start.operations table rows) :
    Records db db' table row := by
  rcases recordOperation_eq_ok hrecorded with ⟨rfl, hfresh⟩
  rw [hstart] at hdb' hfresh
  exact ⟨hdb', hfresh⟩

theorem recordLifecycleOperation_records
    {row : OperationRow LifecycleOutcome}
    (h : start.recordLifecycleOperation row = .ok db')
    (hstart : start.operations = db.operations) :
    Records db db' .lifecycle row := by
  rcases bind_eq_ok.mp h with ⟨rows, hrows, h⟩
  cases h
  exact .ofRecorded hstart hrows (operations_lifecycle start rows)

theorem recordPackOperation_records {row : OperationRow PackOutcome}
    (h : start.recordPackOperation row = .ok db')
    (hstart : start.operations = db.operations) :
    Records db db' .pack row := by
  rcases bind_eq_ok.mp h with ⟨rows, hrows, h⟩
  cases h
  exact .ofRecorded hstart hrows (operations_pack start rows)

theorem recordTransfer_records
    {row : OperationRow ResourceTransferResponse}
    {rows : List (OperationRow ResourceTransferResponse)} {key : String}
    (h : recordOperation start.transferOperations row key = .ok rows)
    (hstart : start.operations = db.operations) :
    Records db { start with transferOperations := rows } .transfer row :=
  .ofRecorded hstart h (operations_transfer start rows)

theorem recordProposalOperation_records
    {row : OperationRow (ProposalAction × SkillProposal)}
    (h : start.recordProposalOperation row = .ok db')
    (hstart : start.operations = db.operations) :
    Records db db' .proposal row := by
  rcases bind_eq_ok.mp h with ⟨rows, hrows, h⟩
  cases h
  exact .ofRecorded hstart hrows (operations_proposal start rows)

theorem recordTeamOperation_records
    {row : OperationRow TeamOperationOutcome}
    (h : start.recordTeamOperation row = .ok db')
    (hstart : start.operations = db.operations) :
    Records db db' .team row := by
  rcases bind_eq_ok.mp h with ⟨rows, hrows, h⟩
  cases h
  exact .ofRecorded hstart hrows (operations_team start rows)

/-- What follows the record leaves the records alone. -/
theorem Records.followed {table : RequestTable}
    {row : OperationRow table.Outcome} {after : Db}
    (h : Records db db' table row)
    (hafter : after.operations = db'.operations) :
    Records db after table row :=
  ⟨hafter.trans h.tables, h.fresh⟩

/-- What precedes the record leaves the records alone. -/
theorem Records.after {table : RequestTable}
    {row : OperationRow table.Outcome} (h : Records start db' table row)
    (hstart : start.operations = db.operations) :
    Records db db' table row := by
  rcases h with ⟨htables, hfresh⟩
  rw [hstart] at htables hfresh
  exact ⟨htables, hfresh⟩

end Recording
end Db

/-!
## Calls of a user
-/

/-- The user of a call, and the checks of its request. -/
def signedIn (userId : Uuid) (checks : Except ApiError Unit)
    (directory : Directory) : Except ApiError UserAuthority := do
  let authority <- directory.userAuthority userId
  checks
  return authority

theorem signedIn_eq_ok {userId : Uuid} {checks : Except ApiError Unit}
    {directory : Directory} {authority : UserAuthority}
    (h : signedIn userId checks directory = .ok authority) :
    authority.userId = userId := by
  rcases bind_eq_ok.mp h with ⟨found, hfound, h⟩
  rcases bind_eq_ok.mp h with ⟨_, _, h⟩
  cases h
  rcases Directory.userAuthority_eq_ok hfound with ⟨_, _, _, hsame, _⟩
  exact hsame

theorem answered_bind {β γ : Type} {x : Except ApiError γ}
    {f : γ -> Except ApiError (β × Db)} :
    answered (x >>= f) = x >>= fun found => answered (f found) := by
  cases x with
  | error error => rfl
  | ok found => rfl

namespace RecordedCall

variable {table : RequestTable} {β κ : Type}

/-- A call whose errors all roll back leaves what its answers leave. -/
theorem leaves_answered {call : RecordedCall table β κ} {db db' : Db}
    {result : Except ApiError (β × Db)} {answer : Except ApiError β}
    (hleaves : forall outcome, result = .ok (outcome, db') ->
      call.Leaves db db' (.ok outcome))
    (h : answered result = .ok (answer, db')) : call.Leaves db db' answer := by
  rcases map_eq_ok.mp h with ⟨⟨outcome, after⟩, hresult, hsame⟩
  cases hsame
  exact hleaves outcome hresult

end RecordedCall

namespace Registry

variable (self : Registry)

/-!
## Publishing a skill
-/

def publishCall (userId : Uuid) (request : PublishSkillRequest) :
    RecordedCall .release PublishSkillResponse UserAuthority where
  userId
  operationId := request.operationId
  fits := SameRequest request.requestHash request.resourceId
  select := some
  outcome := id
  check := signedIn userId do
    checkRequestHash request.requestHash
      (self.hashes.publishSkill request.toPublishSkillRequestHashInput)
      "request_hash does not match the canonical publish payload"
    validateReleaseMetadata request.message request.tags
  replay := fun db authority =>
    Db.replayOperation db.releaseOperations authority.userId
      request.operationId request.requestHash request.resourceId
      "operation_id was already used with different publish content"
  change := fun newConflictId authority db => do
    let context <- publishContext authority request db
    publishWorkspace newConflictId context db

variable {self} {draw userId : Uuid} {db db' : Db}

theorem publishCall_run {newConflictId : Uuid} {request : PublishSkillRequest} :
    (self.publishCall userId request).run newConflictId db =
      self.publishSkill newConflictId userId request db := by
  simp only [RecordedCall.run, publishCall, signedIn, publishSkill, bind_assoc,
    pure_bind]
  refine bind_congr fun _ => bind_congr fun _ => bind_congr fun _ =>
    bind_congr fun replay => ?_
  cases replay with
  | none => rfl
  | some outcome => rfl

theorem recordRelease_records {context : PublishContext} {start : Db}
    {outcome : PublishSkillResponse}
    (h : context.recordRelease outcome start = .ok db')
    (hstart : start.operations = db.operations) :
    Db.Records db db' .release
      { userId := context.authority.userId
        operationId := context.request.operationId
        requestHash := context.request.requestHash
        target := context.request.resourceId
        outcome } := by
  rcases bind_eq_ok.mp h with ⟨rows, hrows, h⟩
  cases h
  exact .ofRecorded hstart hrows (Db.operations_release start rows)

theorem releaseHead_records {context : PublishContext}
    {outcome : PublishSkillResponse}
    (h : context.releaseHead db = .ok (outcome, db')) :
    Db.Records db db' .release
      { userId := context.authority.userId
        operationId := context.request.operationId
        requestHash := context.request.requestHash
        target := context.request.resourceId
        outcome } := by
  rcases bind_eq_ok.mp h with ⟨version, _, h⟩
  rcases bind_eq_ok.mp h with ⟨generation, _, h⟩
  rcases bind_eq_ok.mp h with ⟨stored, hstored, h⟩
  rcases bind_eq_ok.mp h with ⟨recorded, hrecorded, h⟩
  rcases PublishContext.insertHeadRelease_eq_ok hstored with
    ⟨releases, hreleases, _⟩
  rw [hreleases] at hrecorded
  have hrecords : Db.Records db recorded .release _ :=
    recordRelease_records hrecorded rfl
  cases h
  exact hrecords.followed rfl

theorem publishWorkspace_leaves {newConflictId : Uuid}
    {context : PublishContext} {request : PublishSkillRequest}
    {answer : Except ApiError PublishSkillResponse}
    (huser : context.authority.userId = userId)
    (hrequest : context.request = request)
    (h : publishWorkspace newConflictId context db = .ok (answer, db')) :
    (self.publishCall userId request).Leaves db db' answer := by
  subst huser
  subst hrequest
  unfold publishWorkspace at h
  split at h
  · rcases bind_eq_ok.mp h with ⟨release, _, h⟩
    split at h
    · rcases bind_eq_ok.mp h with ⟨_, _, h⟩
      rcases bind_eq_ok.mp h with ⟨⟨outcome, published⟩, hpublished, h⟩
      cases h
      rcases bind_eq_ok.mp hpublished with ⟨generation, _, hpublished⟩
      rcases bind_eq_ok.mp hpublished with ⟨recorded, hrecorded, hpublished⟩
      have hrecords : Db.Records db recorded .release _ :=
        recordRelease_records hrecorded rfl
      cases hpublished
      exact ⟨_, hrecords.followed rfl, rfl, rfl, ⟨rfl, rfl⟩, rfl, rfl⟩
    · split at h
      · rcases bind_eq_ok.mp h with ⟨raised, hraised, h⟩
        cases h
        unfold PublishContext.conflictWithRelease at hraised
        dsimp only at hraised
        split at hraised
        · cases hraised
          rfl
        · rename_i hnone
          rcases bind_eq_ok.mp hraised with ⟨base, _, hraised⟩
          rcases bind_eq_ok.mp hraised with ⟨⟨_, stored⟩, hstored, hraised⟩
          cases hraised
          rcases Db.recordWorkspaceConflict_eq_ok hstored hnone with
            ⟨row, rfl, _⟩
          rfl
      · rcases bind_eq_ok.mp h with ⟨⟨outcome, published⟩, hpublished, h⟩
        cases h
        exact ⟨_, releaseHead_records hpublished, rfl, rfl, ⟨rfl, rfl⟩, rfl,
          rfl⟩
  · rcases bind_eq_ok.mp h with ⟨⟨outcome, published⟩, hpublished, h⟩
    cases h
    exact ⟨_, releaseHead_records hpublished, rfl, rfl, ⟨rfl, rfl⟩, rfl, rfl⟩

theorem publishCall_lawful {request : PublishSkillRequest} :
    (self.publishCall userId request).Lawful where
  selects := fun h => (Option.some.inj h)
  replays := by
    intro db authority hchecked
    rw [← signedIn_eq_ok hchecked]
    exact Db.replayOperation_replays
  leaves := by
    intro draw db db' authority answer hchecked h
    rcases bind_eq_ok.mp h with ⟨context, hcontext, h⟩
    rcases publishContext_eq_ok hcontext with ⟨hauthority, hrequest, _⟩
    refine publishWorkspace_leaves ?_ hrequest h
    rw [hauthority]
    exact signedIn_eq_ok hchecked

/-!
## The life of a skill
-/

/-- A call that looks for a lifecycle operation. -/
def lifecycleCall {β : Type} (userId : Uuid) (operationId : OperationId)
    (requestHash : RequestHash) (resourceId : Uuid)
    (select : LifecycleOutcome -> Option β) (outcome : β -> LifecycleOutcome)
    (checks : Except ApiError Unit)
    (change : UserAuthority -> Db -> Except ApiError (β × Db)) :
    RecordedCall .lifecycle β UserAuthority where
  userId
  operationId
  fits := SameRequest requestHash resourceId
  select
  outcome
  check := signedIn userId checks
  replay := fun db authority =>
    db.replayLifecycleOperation select authority.userId operationId
      requestHash resourceId
  change := fun _ authority db => answered (change authority db)

theorem lifecycleCall_lawful {β : Type} {operationId : OperationId}
    {requestHash : RequestHash} {resourceId : Uuid}
    {select : LifecycleOutcome -> Option β} {outcome : β -> LifecycleOutcome}
    {checks : Except ApiError Unit}
    {change : UserAuthority -> Db -> Except ApiError (β × Db)}
    (hselects : forall found given,
      select found = some given <-> found = outcome given)
    (hrecords : forall authority db db' given,
      change authority db = .ok (given, db') ->
        Db.Records db db' .lifecycle
          { userId := authority.userId
            operationId
            requestHash
            target := resourceId
            outcome := outcome given }) :
    (lifecycleCall userId operationId requestHash resourceId select outcome
      checks change).Lawful where
  selects := fun h => (hselects _ _).mp h
  replays := by
    intro db authority hchecked
    rw [← signedIn_eq_ok hchecked]
    exact Db.replayLifecycleOperation_replays
  leaves := by
    intro draw db db' authority answer hchecked h
    apply RecordedCall.leaves_answered ?_ h
    intro given hchanged
    exact ⟨_, hrecords authority db db' given hchanged,
      signedIn_eq_ok hchecked, rfl, ⟨rfl, rfl⟩, rfl, (hselects _ _).mpr rfl⟩

variable (self)

def unpublishCall (userId : Uuid) (request : ResourceLifecycleRequest) :
    RecordedCall .lifecycle UnpublishSkillResponse UserAuthority :=
  lifecycleCall userId request.operationId request.requestHash
    request.resourceId LifecycleOutcome.unpublish? .unpublish
    (checkLifecycleHash request.requestHash
      (self.hashes.unpublishSkill request.toResourceLifecycleRequestHashInput))
    (hideSkill request)

def pruneCall (userId : Uuid) (request : ResourceLifecycleRequest) :
    RecordedCall .lifecycle HistoryPruneResponse UserAuthority :=
  lifecycleCall userId request.operationId request.requestHash
    request.resourceId LifecycleOutcome.historyPrune? .historyPrune
    (checkLifecycleHash request.requestHash
      (self.hashes.historyPrune request.toResourceLifecycleRequestHashInput))
    fun authority => pruneOwnedSkill authority request

def deleteCall (userId : Uuid) (request : ResourceLifecycleRequest) :
    RecordedCall .lifecycle DeleteSkillResponse UserAuthority :=
  lifecycleCall userId request.operationId request.requestHash
    request.resourceId LifecycleOutcome.delete? .delete
    (checkLifecycleHash request.requestHash
      (self.hashes.deleteSkill request.toResourceLifecycleRequestHashInput))
    (tombstoneSkill request)

def deprecateCall (userId : Uuid) (request : DeprecateSkillRequest) :
    RecordedCall .lifecycle DeprecateSkillResponse UserAuthority :=
  lifecycleCall userId request.operationId request.requestHash
    request.resourceId LifecycleOutcome.deprecate? .deprecate
    (do
      ensure (request.deprecated || request.replacementResourceId.isNone)
        (ApiError.new .invalidRequest
          "an active skill cannot keep a deprecation replacement")
      ensure (decide (request.replacementResourceId ≠ some request.resourceId))
        (ApiError.new .invalidRequest
          "a skill cannot deprecate itself in favor of itself")
      checkLifecycleHash request.requestHash
        (self.hashes.deprecateSkill request.toDeprecateSkillRequestHashInput))
    (setDeprecation request)

variable {self}

theorem unpublishCall_run {request : ResourceLifecycleRequest} :
    (self.unpublishCall userId request).run draw db =
      answered (self.unpublishSkill userId request db) := by
  simp only [RecordedCall.run, unpublishCall, lifecycleCall, signedIn,
    unpublishSkill, answered_bind, bind_assoc, pure_bind]
  refine bind_congr fun _ => bind_congr fun _ => bind_congr fun replay => ?_
  cases replay with
  | none => rfl
  | some outcome => rfl

theorem pruneCall_run {request : ResourceLifecycleRequest} :
    (self.pruneCall userId request).run draw db =
      answered (self.pruneSkillHistory userId request db) := by
  simp only [RecordedCall.run, pruneCall, lifecycleCall, signedIn,
    pruneSkillHistory, answered_bind, bind_assoc, pure_bind]
  refine bind_congr fun _ => bind_congr fun _ => bind_congr fun replay => ?_
  cases replay with
  | none => rfl
  | some outcome => rfl

theorem deleteCall_run {request : ResourceLifecycleRequest} :
    (self.deleteCall userId request).run draw db =
      answered (self.deleteSkill userId request db) := by
  simp only [RecordedCall.run, deleteCall, lifecycleCall, signedIn,
    deleteSkill, answered_bind, bind_assoc, pure_bind]
  refine bind_congr fun _ => bind_congr fun _ => bind_congr fun replay => ?_
  cases replay with
  | none => rfl
  | some outcome => rfl

theorem deprecateCall_run {request : DeprecateSkillRequest} :
    (self.deprecateCall userId request).run draw db =
      answered (self.deprecateSkill userId request db) := by
  simp only [RecordedCall.run, deprecateCall, lifecycleCall, signedIn,
    deprecateSkill, answered_bind, bind_assoc, pure_bind]
  refine bind_congr fun _ => bind_congr fun _ => bind_congr fun _ =>
    bind_congr fun _ => bind_congr fun replay => ?_
  cases replay with
  | none => rfl
  | some outcome => rfl

theorem unpublishCall_lawful {request : ResourceLifecycleRequest} :
    (self.unpublishCall userId request).Lawful := by
  apply lifecycleCall_lawful
  · intro found given
    cases found <;> simp [LifecycleOutcome.unpublish?]
  · intro authority db db' given h
    rcases bind_eq_ok.mp h with ⟨target, _, h⟩
    rcases bind_eq_ok.mp h with ⟨⟨resource, owner⟩, _, h⟩
    rcases bind_eq_ok.mp h with ⟨_, _, h⟩
    rcases bind_eq_ok.mp h with ⟨_, _, h⟩
    rcases bind_eq_ok.mp h with ⟨_, _, h⟩
    rcases bind_eq_ok.mp h with ⟨_, _, h⟩
    rcases bind_eq_ok.mp h with ⟨_, _, h⟩
    rcases bind_eq_ok.mp h with ⟨generation, _, h⟩
    rcases bind_eq_ok.mp h with ⟨recorded, hrecorded, h⟩
    have hrecords : Db.Records db recorded .lifecycle _ :=
      Db.recordLifecycleOperation_records hrecorded rfl
    cases h
    exact hrecords.followed rfl

theorem deleteCall_lawful {request : ResourceLifecycleRequest} :
    (self.deleteCall userId request).Lawful := by
  apply lifecycleCall_lawful
  · intro found given
    cases found <;> simp [LifecycleOutcome.delete?]
  · intro authority db db' given h
    rcases bind_eq_ok.mp h with ⟨target, _, h⟩
    rcases bind_eq_ok.mp h with ⟨_, _, h⟩
    rcases bind_eq_ok.mp h with ⟨⟨resource, owner⟩, _, h⟩
    rcases bind_eq_ok.mp h with ⟨_, _, h⟩
    rcases bind_eq_ok.mp h with ⟨_, _, h⟩
    rcases bind_eq_ok.mp h with ⟨_, _, h⟩
    rcases bind_eq_ok.mp h with ⟨generation, _, h⟩
    rcases bind_eq_ok.mp h with ⟨recorded, hrecorded, h⟩
    have hrecords : Db.Records db recorded .lifecycle _ :=
      Db.recordLifecycleOperation_records hrecorded rfl
    cases h
    exact hrecords.followed rfl

theorem deprecateCall_lawful {request : DeprecateSkillRequest} :
    (self.deprecateCall userId request).Lawful := by
  apply lifecycleCall_lawful
  · intro found given
    cases found <;> simp [LifecycleOutcome.deprecate?]
  · intro authority db db' given h
    rcases bind_eq_ok.mp h with ⟨target, _, h⟩
    rcases bind_eq_ok.mp h with ⟨⟨resource, owner⟩, _, h⟩
    rcases bind_eq_ok.mp h with ⟨_, _, h⟩
    rcases bind_eq_ok.mp h with ⟨_, _, h⟩
    rcases bind_eq_ok.mp h with ⟨_, _, h⟩
    rcases bind_eq_ok.mp h with ⟨_, _, h⟩
    rcases bind_eq_ok.mp h with ⟨replacement, _, h⟩
    rcases bind_eq_ok.mp h with ⟨generation, _, h⟩
    rcases bind_eq_ok.mp h with ⟨recorded, hrecorded, h⟩
    have hrecords : Db.Records db recorded .lifecycle _ :=
      Db.recordLifecycleOperation_records hrecorded rfl
    cases h
    exact hrecords.followed rfl

theorem pruneCall_lawful {request : ResourceLifecycleRequest} :
    (self.pruneCall userId request).Lawful := by
  apply lifecycleCall_lawful
  · intro found given
    cases found <;> simp [LifecycleOutcome.historyPrune?]
  · intro authority db db' given h
    rcases bind_eq_ok.mp h with ⟨⟨resource, owner⟩, _, h⟩
    rcases bind_eq_ok.mp h with ⟨_, _, h⟩
    rcases bind_eq_ok.mp h with ⟨_, _, h⟩
    rcases bind_eq_ok.mp h with ⟨_, _, h⟩
    rcases bind_eq_ok.mp h with ⟨⟨totals, dropped⟩, hdropped, h⟩
    rcases bind_eq_ok.mp h with ⟨generation, _, h⟩
    rcases bind_eq_ok.mp h with ⟨recorded, hrecorded, h⟩
    rcases Db.pruneBlobs_eq_ok hdropped with ⟨marked, hmarked⟩
    rcases Db.pruneSnapshots_eq authority.userId request.resourceId
        (db.prunableRevisions authority.userId request.resourceId) dropped with
      ⟨revisionBlobs, hpruned, _⟩
    have hrecords : Db.Records db recorded .lifecycle _ :=
      Db.recordLifecycleOperation_records hrecorded (by
        rw [hpruned, hmarked]
        rfl)
    cases h
    exact hrecords.followed rfl

/-!
## Moving a skill or a pack
-/

variable (self)

/-- A transfer, with the change for the kind of its resource. -/
def transferCall (userId : Uuid) (request : ResourceTransferRequest)
    (change : UserAuthority -> Db ->
      Except ApiError (ResourceTransferResponse × Db)) :
    RecordedCall .transfer ResourceTransferResponse UserAuthority where
  userId
  operationId := request.operationId
  fits := SameRequest request.requestHash request.resourceId
  select := some
  outcome := id
  check := signedIn userId
    (checkRequestHash request.requestHash
      (self.hashes.resourceTransfer request.toResourceTransferRequestHashInput)
      "request_hash does not match the canonical resource transfer payload")
  replay := fun db authority =>
    Db.replayOperation db.transferOperations authority.userId
      request.operationId request.requestHash request.resourceId
      "operation_id was already used with different transfer content"
  change := fun _ authority db => answered (change authority db)

variable {self}

theorem transferCall_run {request : ResourceTransferRequest} :
    (self.transferCall userId request fun authority =>
        self.moveResource authority request).run draw db =
      answered (self.transferResource userId request db) := by
  simp only [RecordedCall.run, transferCall, signedIn, transferResource,
    answered_bind, bind_assoc, pure_bind]
  refine bind_congr fun _ => bind_congr fun _ => bind_congr fun replay => ?_
  cases replay with
  | none => rfl
  | some outcome => rfl

theorem transferPackCall_run {request : ResourceTransferRequest} :
    (self.transferCall userId request fun authority =>
        self.movePackToTeam authority request).run draw db =
      answered (self.transferPack userId request db) := by
  simp only [RecordedCall.run, transferCall, signedIn, transferPack,
    answered_bind, bind_assoc, pure_bind]
  refine bind_congr fun _ => bind_congr fun _ => bind_congr fun replay => ?_
  cases replay with
  | none => rfl
  | some outcome => rfl

theorem transferCall_lawful {request : ResourceTransferRequest}
    {change : UserAuthority -> Db ->
      Except ApiError (ResourceTransferResponse × Db)}
    (hrecords : forall authority db db' outcome,
      change authority db = .ok (outcome, db') ->
        Db.Records db db' .transfer
          { userId := authority.userId
            operationId := request.operationId
            requestHash := request.requestHash
            target := request.resourceId
            outcome }) :
    (self.transferCall userId request change).Lawful where
  selects := fun h => Option.some.inj h
  replays := by
    intro db authority hchecked
    rw [← signedIn_eq_ok hchecked]
    exact Db.replayOperation_replays
  leaves := by
    intro draw db db' authority answer hchecked h
    apply RecordedCall.leaves_answered ?_ h
    intro outcome hchanged
    exact ⟨_, hrecords authority db db' outcome hchanged,
      signedIn_eq_ok hchecked, rfl, ⟨rfl, rfl⟩, rfl, rfl⟩

theorem moveResource_records {authority : UserAuthority}
    {request : ResourceTransferRequest} {outcome : ResourceTransferResponse}
    (h : self.moveResource authority request db = .ok (outcome, db')) :
    Db.Records db db' .transfer
      { userId := authority.userId
        operationId := request.operationId
        requestHash := request.requestHash
        target := request.resourceId
        outcome } := by
  rcases bind_eq_ok.mp h with ⟨destination, _, h⟩
  rcases bind_eq_ok.mp h with ⟨_, _, h⟩
  rcases bind_eq_ok.mp h with ⟨⟨resource, owner⟩, _, h⟩
  rcases bind_eq_ok.mp h with ⟨_, _, h⟩
  rcases bind_eq_ok.mp h with ⟨_, _, h⟩
  rcases bind_eq_ok.mp h with ⟨_, _, h⟩
  rcases bind_eq_ok.mp h with ⟨_, _, h⟩
  rcases bind_eq_ok.mp h with ⟨_, _, h⟩
  rcases bind_eq_ok.mp h with ⟨moved, hmoved, h⟩
  rcases bind_eq_ok.mp h with ⟨generation, _, h⟩
  rcases bind_eq_ok.mp h with ⟨redirected, hredirected, h⟩
  rcases bind_eq_ok.mp h with ⟨operations, hrecorded, h⟩
  rcases bind_eq_ok.mp hmoved with ⟨_, _, hmoved⟩
  rcases upsertRedirect_eq_ok hredirected with ⟨redirects, rfl, _⟩
  cases hmoved
  have hrecords : Db.Records db _ .transfer _ :=
    Db.recordTransfer_records hrecorded rfl
  cases h
  exact hrecords.followed rfl

theorem movePackToTeam_records {authority : UserAuthority}
    {request : ResourceTransferRequest} {outcome : ResourceTransferResponse}
    (h : self.movePackToTeam authority request db = .ok (outcome, db')) :
    Db.Records db db' .transfer
      { userId := authority.userId
        operationId := request.operationId
        requestHash := request.requestHash
        target := request.resourceId
        outcome } := by
  rcases bind_eq_ok.mp h with ⟨destination, _, h⟩
  rcases bind_eq_ok.mp h with ⟨_, _, h⟩
  rcases bind_eq_ok.mp h with ⟨⟨resource, owner⟩, _, h⟩
  rcases bind_eq_ok.mp h with ⟨_, _, h⟩
  rcases bind_eq_ok.mp h with ⟨_, _, h⟩
  rcases bind_eq_ok.mp h with ⟨_, _, h⟩
  rcases bind_eq_ok.mp h with ⟨_, _, h⟩
  rcases bind_eq_ok.mp h with ⟨_, _, h⟩
  rcases bind_eq_ok.mp h with ⟨_, _, h⟩
  rcases bind_eq_ok.mp h with ⟨moved, hmoved, h⟩
  rcases bind_eq_ok.mp h with ⟨generation, _, h⟩
  rcases bind_eq_ok.mp h with ⟨redirected, hredirected, h⟩
  rcases bind_eq_ok.mp h with ⟨operations, hrecorded, h⟩
  rcases bind_eq_ok.mp hmoved with ⟨_, _, hmoved⟩
  rcases upsertPackRedirect_eq_ok hredirected with ⟨redirects, rfl, _⟩
  cases hmoved
  have hrecords : Db.Records db _ .transfer _ :=
    Db.recordTransfer_records hrecorded rfl
  cases h
  exact hrecords.followed rfl

/-!
## Sharing a skill
-/

variable (self)

def shareCall (kind : ShareMutationKind) (userId : Uuid)
    (request : ShareSkillRequest) :
    RecordedCall .share ShareSkillResponse UserAuthority where
  userId
  operationId := request.operationId
  fits := SameRequest request.requestHash request.resourceId
  select := some
  outcome := id
  check := signedIn userId
    (checkRequestHash request.requestHash
      (self.hashes.shareSkill kind request.toShareSkillRequestHashInput)
      "request_hash does not match the canonical sharing intent")
  replay := fun db authority =>
    Db.replayOperation db.shareOperations authority.userId
      request.operationId request.requestHash request.resourceId
      "operation_id was already used with different sharing intent"
  change := fun _ authority db =>
    answered (shareOwnedSkill kind authority request db)

variable {self}

theorem shareCall_run {kind : ShareMutationKind}
    {request : ShareSkillRequest} :
    (self.shareCall kind userId request).run draw db =
      answered (self.mutatePrivateShare kind userId request db) := by
  simp only [RecordedCall.run, shareCall, signedIn, mutatePrivateShare,
    answered_bind, bind_assoc, pure_bind]
  refine bind_congr fun _ => bind_congr fun _ => bind_congr fun replay => ?_
  cases replay with
  | none => rfl
  | some outcome => rfl

theorem operations_changeShare {kind : ShareMutationKind}
    {resourceId recipient : Uuid} :
    (changeShare db kind resourceId recipient).operations =
      db.operations := by
  unfold changeShare
  split
  · split
    · rfl
    · rfl
  · rfl

theorem shareOwnedSkill_records {kind : ShareMutationKind}
    {authority : UserAuthority} {request : ShareSkillRequest}
    {outcome : ShareSkillResponse}
    (h : shareOwnedSkill kind authority request db = .ok (outcome, db')) :
    Db.Records db db' .share
      { userId := authority.userId
        operationId := request.operationId
        requestHash := request.requestHash
        target := request.resourceId
        outcome } := by
  rcases bind_eq_ok.mp h with ⟨resource, _, h⟩
  rcases bind_eq_ok.mp h with ⟨owner, _, h⟩
  rcases bind_eq_ok.mp h with ⟨_, _, h⟩
  rcases bind_eq_ok.mp h with ⟨⟨recipient, slug⟩, _, h⟩
  rcases bind_eq_ok.mp h with ⟨_, _, h⟩
  rcases bind_eq_ok.mp h with ⟨rows, hrecorded, h⟩
  have hrecords : Db.Records db
      { changeShare db kind request.resourceId recipient.id with
        shareOperations := rows } .share _ :=
    .ofRecorded operations_changeShare hrecorded (Db.operations_share _ rows)
  cases h
  exact hrecords.followed rfl

theorem shareCall_lawful {kind : ShareMutationKind}
    {request : ShareSkillRequest} :
    (self.shareCall kind userId request).Lawful where
  selects := fun h => Option.some.inj h
  replays := by
    intro db authority hchecked
    rw [← signedIn_eq_ok hchecked]
    exact Db.replayOperation_replays
  leaves := by
    intro draw db db' authority answer hchecked h
    apply RecordedCall.leaves_answered ?_ h
    intro outcome hshared
    exact ⟨_, shareOwnedSkill_records hshared, signedIn_eq_ok hchecked, rfl,
      ⟨rfl, rfl⟩, rfl, rfl⟩

/-!
## Quarantine

The caller is an operator, who is no user.
-/

variable (self)

def quarantineCall (kind : AdminQuarantineMutationKind)
    (operator : Uuid) (request : AdminQuarantineRequest) :
    RecordedCall .admin AdminQuarantineResponse Unit where
  userId := operator
  operationId := request.operationId
  fits := SameHash request.requestHash
  select := fun outcome => outcome.mutation? kind
  outcome := kind.outcome
  check := fun directory => do
    checkRequestHash request.requestHash
      (self.hashes.adminQuarantine kind
        request.toAdminQuarantineRequestHashInput)
      "request_hash does not match the canonical admin quarantine payload"
    let reason := trim request.reason
    ensure (decide (kind ≠ .quarantine) ||
        (!reason.isEmpty && reason.length ≤ 500))
      (ApiError.new .invalidRequest
        "quarantine reason must contain 1-500 characters")
    ensure (decide (operator ∈ directory.operators))
      (ApiError.new .unauthorized "operator credential rejected")
  replay := fun db _ =>
    replayAdminOperation db kind operator request.operationId
      request.requestHash
  change := fun newQuarantineId _ db =>
    answered (quarantineResource kind newQuarantineId operator request db)

variable {self}

theorem quarantineCall_run {kind : AdminQuarantineMutationKind}
    {newQuarantineId operator : Uuid} {request : AdminQuarantineRequest} :
    (self.quarantineCall kind operator request).run newQuarantineId db =
      answered
        (self.mutateQuarantine kind newQuarantineId operator request db) := by
  simp only [RecordedCall.run, quarantineCall, mutateQuarantine,
    answered_bind, bind_assoc]
  refine bind_congr fun _ => bind_congr fun _ => bind_congr fun _ =>
    bind_congr fun replay => ?_
  cases replay with
  | none => rfl
  | some outcome => rfl

theorem operations_changeQuarantine {kind : AdminQuarantineMutationKind}
    {newId resourceId : Uuid} {version : Option Generation} {reason : Text} :
    (changeQuarantine db kind newId resourceId version
      reason).2.2.operations = db.operations := by
  unfold changeQuarantine
  split
  all_goals rfl

theorem operations_advanceQuarantined {changed : Bool}
    {resource : ResourceRow} {generation : Generation}
    (h : advanceQuarantined db changed resource = .ok (generation, db')) :
    db'.operations = db.operations := by
  unfold advanceQuarantined at h
  split at h
  · rcases bind_eq_ok.mp h with ⟨_, _, h⟩
    cases h
    rfl
  · cases h
    rfl

theorem mutation?_eq_some {kind : AdminQuarantineMutationKind}
    {found : AdminOutcome} {outcome : AdminQuarantineResponse} :
    found.mutation? kind = some outcome <-> found = kind.outcome outcome := by
  cases kind <;> cases found <;>
    simp [AdminOutcome.mutation?, AdminQuarantineMutationKind.outcome]

theorem quarantineResource_records {kind : AdminQuarantineMutationKind}
    {newQuarantineId operator : Uuid} {request : AdminQuarantineRequest}
    {outcome : AdminQuarantineResponse}
    (h : quarantineResource kind newQuarantineId operator request db =
      .ok (outcome, db')) :
    exists target, Db.Records db db' .admin
      { userId := operator
        operationId := request.operationId
        requestHash := request.requestHash
        target
        outcome := kind.outcome outcome } := by
  rcases bind_eq_ok.mp h with ⟨resource, _, h⟩
  rcases bind_eq_ok.mp h with ⟨_, _, h⟩
  rcases bind_eq_ok.mp h with ⟨version, _, h⟩
  rcases bind_eq_ok.mp h with ⟨⟨generation, advanced⟩, hadvanced, h⟩
  rcases bind_eq_ok.mp h with ⟨rows, hrecorded, h⟩
  have hsame := (operations_advanceQuarantined hadvanced).trans
    operations_changeQuarantine
  cases h
  exact ⟨resource.id, .ofRecorded hsame hrecorded (Db.operations_admin _ rows)⟩

theorem quarantineCall_lawful {kind : AdminQuarantineMutationKind}
    {operator : Uuid} {request : AdminQuarantineRequest} :
    (self.quarantineCall kind operator request).Lawful where
  selects := mutation?_eq_some.mp
  replays := fun _ => Db.replayAdminOperation_replays
  leaves := by
    intro draw db db' authority answer _ h
    apply RecordedCall.leaves_answered ?_ h
    intro outcome hchanged
    rcases quarantineResource_records hchanged with ⟨target, hrecords⟩
    exact ⟨_, hrecords, rfl, rfl, rfl, rfl, mutation?_eq_some.mpr rfl⟩

/-!
## Proposals
-/

variable (self)

def createProposalCall (userId : Uuid) (request : ProposalCreateRequest) :
    RecordedCall .proposal SkillProposal UserAuthority where
  userId
  operationId := request.operationId
  fits := SameHash request.requestHash
  select := Db.proposalAnswer .create
  outcome := fun proposal => (.create, proposal)
  check := signedIn userId do
    validateMessage request.message
    checkProposalHash request.requestHash
      (self.hashes.proposalCreate request.toProposalCreateRequestHashInput)
  replay := fun db authority =>
    db.replayProposalOperation authority.userId request.operationId
      request.requestHash .create
  change := fun proposalId authority db =>
    answered (openProposal proposalId authority request db)

def acceptProposalCall (userId : Uuid) (request : ProposalAcceptRequest) :
    RecordedCall .proposal SkillProposal UserAuthority where
  userId
  operationId := request.operationId
  fits := SameHash request.requestHash
  select := Db.proposalAnswer .accept
  outcome := fun proposal => (.accept, proposal)
  check := signedIn userId
    (checkProposalHash request.requestHash
      (self.hashes.proposalAccept request.toProposalAcceptRequestHashInput))
  replay := fun db authority =>
    db.replayProposalOperation authority.userId request.operationId
      request.requestHash .accept
  change := fun _ authority db =>
    answered (acceptOpenProposal self authority request db)

variable {self}

theorem createProposalCall_run {proposalId : Uuid}
    {request : ProposalCreateRequest} :
    (self.createProposalCall userId request).run proposalId db =
      answered (self.createProposal proposalId userId request db) := by
  simp only [RecordedCall.run, createProposalCall, signedIn, createProposal,
    answered_bind, bind_assoc, pure_bind]
  refine bind_congr fun _ => bind_congr fun _ => bind_congr fun _ =>
    bind_congr fun replay => ?_
  cases replay with
  | none => rfl
  | some outcome => rfl

theorem acceptProposalCall_run {request : ProposalAcceptRequest} :
    (self.acceptProposalCall userId request).run draw db =
      answered (self.acceptProposal userId request db) := by
  simp only [RecordedCall.run, acceptProposalCall, signedIn, acceptProposal,
    answered_bind, bind_assoc, pure_bind]
  refine bind_congr fun _ => bind_congr fun _ => bind_congr fun replay => ?_
  cases replay with
  | none => rfl
  | some outcome => rfl

theorem proposalAnswer_eq_some {action : ProposalAction}
    {found : ProposalAction × SkillProposal} {proposal : SkillProposal} :
    Db.proposalAnswer action found = some proposal <->
      found = (action, proposal) := by
  rcases found with ⟨other, stored⟩
  simp [Db.proposalAnswer]

theorem proposalAnswer_self (action : ProposalAction)
    (proposal : SkillProposal) :
    Db.proposalAnswer action (action, proposal) = some proposal :=
  proposalAnswer_eq_some.mpr rfl

theorem createProposalCall_lawful {request : ProposalCreateRequest} :
    (self.createProposalCall userId request).Lawful where
  selects := proposalAnswer_eq_some.mp
  replays := by
    intro db authority hchecked
    rw [← signedIn_eq_ok hchecked]
    exact Db.replayProposalOperation_replays
  leaves := by
    intro draw db db' authority answer hchecked h
    apply RecordedCall.leaves_answered ?_ h
    intro outcome hopened
    rcases bind_eq_ok.mp hopened with ⟨⟨source, fork⟩, _, hopened⟩
    rcases bind_eq_ok.mp hopened with ⟨_, _, hopened⟩
    rcases bind_eq_ok.mp hopened with ⟨_, _, hopened⟩
    rcases bind_eq_ok.mp hopened with ⟨target, _, hopened⟩
    rcases bind_eq_ok.mp hopened with ⟨_, _, hopened⟩
    rcases bind_eq_ok.mp hopened with ⟨_, _, hopened⟩
    rcases bind_eq_ok.mp hopened with ⟨inserted, hinserted, hopened⟩
    rcases bind_eq_ok.mp hopened with ⟨view, _, hopened⟩
    rcases bind_eq_ok.mp hopened with ⟨shown, _, hopened⟩
    rcases bind_eq_ok.mp hopened with ⟨recorded, hrecorded, hopened⟩
    rcases bind_eq_ok.mp hinserted with ⟨_, _, hinserted⟩
    rcases bind_eq_ok.mp hinserted with ⟨_, _, hinserted⟩
    cases hopened
    cases hinserted
    exact ⟨_, Db.recordProposalOperation_records hrecorded rfl,
      signedIn_eq_ok hchecked, rfl, rfl, rfl,
      proposalAnswer_self .create outcome⟩

theorem moveToAccepted_records {authority : UserAuthority}
    {request : ProposalAcceptRequest} {isTeam : Bool} {view : ProposalView}
    {workspace : WorkspaceRow} {outcome : SkillProposal}
    (h : moveToAccepted self authority request isTeam view workspace db =
      .ok (outcome, db')) :
    Db.Records db db' .proposal
      { userId := authority.userId
        operationId := request.operationId
        requestHash := request.requestHash
        target := view.proposal.id
        outcome := (.accept, outcome) } := by
  rcases bind_eq_ok.mp h with ⟨attached, hattached, h⟩
  rcases attachProposalRevision_frame hattached with ⟨_, _, _, _, rfl⟩
  rcases bind_eq_ok.mp h with ⟨source, _, h⟩
  rcases bind_eq_ok.mp h with ⟨stored, _, h⟩
  rcases bind_eq_ok.mp h with ⟨nextWorkspace, _, h⟩
  rcases bind_eq_ok.mp h with ⟨nextResource, _, h⟩
  rcases bind_eq_ok.mp h with ⟨nextProposal, _, h⟩
  rcases bind_eq_ok.mp h with ⟨closed, _, h⟩
  rcases bind_eq_ok.mp h with ⟨shown, _, h⟩
  rcases bind_eq_ok.mp h with ⟨recorded, hrecorded, h⟩
  cases isTeam with
  | true =>
      cases h
      exact Db.recordProposalOperation_records hrecorded rfl
  | false =>
      cases h
      have hrecords : Db.Records db recorded .proposal _ :=
        Db.recordProposalOperation_records hrecorded rfl
      exact hrecords.followed rfl

theorem operations_ensurePrivateWorkspaceForUser {resourceId user : Uuid} :
    (db.ensurePrivateWorkspaceForUser resourceId user).operations =
      db.operations := by
  rcases Db.ensurePrivateWorkspaceForUser_cases db resourceId user with
    hsame | ⟨_, _, _, _, hsame⟩
  · rw [hsame]
  · rw [hsame]
    funext table
    cases table <;> rfl

theorem acceptProposalCall_lawful {request : ProposalAcceptRequest} :
    (self.acceptProposalCall userId request).Lawful where
  selects := proposalAnswer_eq_some.mp
  replays := by
    intro db authority hchecked
    rw [← signedIn_eq_ok hchecked]
    exact Db.replayProposalOperation_replays
  leaves := by
    intro draw db db' authority answer hchecked h
    apply RecordedCall.leaves_answered ?_ h
    intro outcome haccepted
    rcases bind_eq_ok.mp haccepted with ⟨view, _, haccepted⟩
    rcases bind_eq_ok.mp haccepted with ⟨target, _, haccepted⟩
    rcases bind_eq_ok.mp haccepted with ⟨_, _, haccepted⟩
    rcases bind_eq_ok.mp haccepted with ⟨workspace, _, haccepted⟩
    have hrecords := moveToAccepted_records haccepted
    have hsame : (if target.isTeam = true then
        db.ensurePrivateWorkspaceForUser view.target.id authority.userId
        else db).operations = db.operations := by
      split
      · exact operations_ensurePrivateWorkspaceForUser
      · rfl
    exact ⟨_, hrecords.after hsame, signedIn_eq_ok hchecked, rfl, rfl, rfl,
      proposalAnswer_self .accept outcome⟩

end Registry
end Denju
